import Mathlib.Data.List.Basic

namespace PySearch

-- The Unicode tables behind `unicodedata.normalize("NFKC", _)`, `str.casefold`
-- and `str.isalnum`.
structure Unicode where
  nfkc : String → String
  casefold : String → String
  isalnum : Char → Bool

-- The tables restricted to ASCII text.
def Unicode.ascii : Unicode where
  nfkc text := text
  casefold text := String.ofList (text.toList.map Char.toLower)
  isalnum := Char.isAlphanum

namespace Analysis

def normalize (unicode : Unicode) (text : String) : String :=
  unicode.casefold (unicode.nfkc text)

-- The loop of `tokenize`: `current` is the run of alphanumeric characters read so far.
def scan (isalnum : Char → Bool) :
    List Char → List Char → List String → List String
  | [], current, tokens =>
      if current = [] then tokens else tokens ++ [String.ofList current]
  | character :: rest, current, tokens =>
      if isalnum character then scan isalnum rest (current ++ [character]) tokens
      else if current = [] then scan isalnum rest current tokens
      else scan isalnum rest [] (tokens ++ [String.ofList current])

def tokenize (isalnum : Char → Bool) (text : String) : List String :=
  scan isalnum text.toList [] []

def analyze (unicode : Unicode) (text : String) : List String :=
  tokenize unicode.isalnum (normalize unicode text)

end Analysis

end PySearch
