import PySearch.Search.Errors

namespace PySearch

-- The characters that `str.strip` removes.
def isSpace (c : Char) : Bool :=
  let n := c.toNat
  (9 ≤ n && n ≤ 13) || (28 ≤ n && n ≤ 32) || n = 0x85 || n = 0xa0 || n = 0x1680 ||
    (0x2000 ≤ n && n ≤ 0x200a) || n = 0x2028 || n = 0x2029 || n = 0x202f || n = 0x205f || n = 0x3000

def isBlank (text : String) : Bool := text.toList.all isSpace

-- A unit of indexable content. A document with a blank identifier cannot be built.
structure Document where
  documentId : String
  text : String
  nonblank : isBlank documentId = false
  deriving DecidableEq

-- The constructor as callers see it.
def Document.create (documentId text : String) : Except PyError Document :=
  if h : isBlank documentId = false then .ok ⟨documentId, text, h⟩
  else .error (.invalidDocument "document_id must not be empty or blank")

end PySearch
