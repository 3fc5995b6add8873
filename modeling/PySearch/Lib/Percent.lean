import Mathlib.Data.List.Basic

-- Percent-encoding of text, and its decoding into bytes.
namespace Percent

def isHex (c : Char) : Bool :=
  c.isDigit || ('a' ≤ c && c ≤ 'f') || ('A' ≤ c && c ≤ 'F')

def hexValue (c : Char) : Nat :=
  if c.isDigit then c.toNat - 48 else if 'a' ≤ c && c ≤ 'f' then c.toNat - 87 else c.toNat - 55

def hexDigit (n : Nat) : Char := if n < 10 then Char.ofNat (48 + n) else Char.ofNat (55 + n)

def escapeByte (byte : UInt8) : List Char :=
  ['%', hexDigit (byte.toNat / 16), hexDigit (byte.toNat % 16)]

def quoteChar (allowed : Char → Bool) (c : Char) : List Char :=
  if allowed c then [c] else (String.utf8EncodeChar c).flatMap escapeByte

-- Whether the three characters are an escape.
def isEscape (c a b : Char) : Bool := c = '%' && isHex a && isHex b

-- An escape that is already there is kept.
def quote (allowed : Char → Bool) : List Char → List Char
  | c :: a :: b :: rest =>
      if isEscape c a b then c :: a :: b :: quote allowed rest
      else quoteChar allowed c ++ quote allowed (a :: b :: rest)
  | [c, a] => quoteChar allowed c ++ quoteChar allowed a
  | [c] => quoteChar allowed c
  | [] => []

def unquote : List Char → List UInt8
  | c :: a :: b :: rest =>
      if isEscape c a b then UInt8.ofNat (hexValue a * 16 + hexValue b) :: unquote rest
      else String.utf8EncodeChar c ++ unquote (a :: b :: rest)
  | [c, a] => String.utf8EncodeChar c ++ String.utf8EncodeChar a
  | [c] => String.utf8EncodeChar c
  | [] => []

-- The text contains no escape.
def clean : List Char → Bool
  | c :: a :: b :: rest => !isEscape c a b && clean (a :: b :: rest)
  | _ => true

theorem isHex_hexDigit : ∀ n < 16, isHex (hexDigit n) = true := by decide

theorem hexValue_hexDigit : ∀ n < 16, hexValue (hexDigit n) = n := by decide

theorem unquote_escapeByte (byte : UInt8) (rest : List Char) :
    unquote (escapeByte byte ++ rest) = byte :: unquote rest := by
  have hbyte : byte.toNat < 256 := byte.toNat_lt
  have hhigh : byte.toNat / 16 < 16 := by omega
  have hlow : byte.toNat % 16 < 16 := by omega
  have hescape : isEscape '%' (hexDigit (byte.toNat / 16)) (hexDigit (byte.toNat % 16)) = true := by
    simp [isEscape, isHex_hexDigit _ hhigh, isHex_hexDigit _ hlow]
  simp only [escapeByte, List.cons_append, List.nil_append, unquote, hescape, if_true,
    hexValue_hexDigit _ hhigh, hexValue_hexDigit _ hlow]
  rw [Nat.div_add_mod', UInt8.ofNat_toNat]

theorem unquote_escapeBytes (bytes : List UInt8) (rest : List Char) :
    unquote (bytes.flatMap escapeByte ++ rest) = bytes ++ unquote rest := by
  induction bytes with
  | nil => rfl
  | cons byte bytes ih =>
      rw [List.flatMap_cons, List.append_assoc, unquote_escapeByte, ih, List.cons_append]

-- Nothing but a percent sign starts an escape.
theorem unquote_cons {c : Char} (h : c ≠ '%') (rest : List Char) :
    unquote (c :: rest) = String.utf8EncodeChar c ++ unquote rest := by
  match rest with
  | [] => simp [unquote]
  | [a] => simp [unquote]
  | a :: b :: rest => simp [unquote, isEscape, h]

theorem unquote_append {text : List Char} (h : '%' ∉ text) (rest : List Char) :
    unquote (text ++ rest) = text.flatMap String.utf8EncodeChar ++ unquote rest := by
  induction text with
  | nil => rfl
  | cons c text ih =>
      rw [List.mem_cons, not_or] at h
      rw [List.cons_append, unquote_cons (Ne.symm h.1), ih h.2, List.flatMap_cons,
        List.append_assoc]

section Quote

variable {allowed : Char → Bool} (hpercent : allowed '%' = false)

include hpercent

theorem unquote_quoteChar (c : Char) (rest : List Char) :
    unquote (quoteChar allowed c ++ rest) = String.utf8EncodeChar c ++ unquote rest := by
  unfold quoteChar
  split
  · rename_i hallowed
    have hc : c ≠ '%' := by
      rintro rfl
      simp [hpercent] at hallowed
    exact unquote_cons hc rest
  · exact unquote_escapeBytes _ rest

-- Quoting changes nothing that unquoting would notice.
theorem unquote_quote (text : List Char) : unquote (quote allowed text) = unquote text := by
  induction text using quote.induct with
  | case1 c a b rest hescape ih =>
      rw [quote, if_pos hescape, unquote, if_pos hescape, ih, unquote, if_pos hescape]
  | case2 c a b rest hescape ih =>
      rw [quote, if_neg hescape, unquote_quoteChar hpercent, ih, unquote, if_neg hescape]
  | case3 c a =>
      have hlast := unquote_quoteChar hpercent a []
      rw [List.append_nil] at hlast
      rw [quote, unquote_quoteChar hpercent, hlast]
      simp [unquote]
  | case4 c =>
      have hlast := unquote_quoteChar hpercent c []
      rw [List.append_nil] at hlast
      rw [quote, hlast]
      simp [unquote]
  | case5 => rfl

end Quote

-- Text without escapes is decoded into its own bytes.
theorem unquote_of_clean (text : List Char) (h : clean text = true) :
    unquote text = text.flatMap String.utf8EncodeChar := by
  induction text using unquote.induct with
  | case1 c a b rest hescape ih => simp [clean, hescape] at h
  | case2 c a b rest hescape ih =>
      simp only [clean, Bool.and_eq_true] at h
      rw [unquote, if_neg hescape, ih h.2]
      rfl
  | case3 c a => simp [unquote]
  | case4 c => simp [unquote]
  | case5 => rfl

section Ascii

def asciiBytes (bytes : List UInt8) : Nat := bytes.countP fun byte => byte.toNat < 128

def asciiChars (text : List Char) : Nat := text.countP fun c => c.toNat < 128

theorem asciiBytes_utf8EncodeChar (c : Char) :
    asciiBytes (String.utf8EncodeChar c) = asciiChars [c] := by
  have hval : c.val.toNat = c.toNat := rfl
  unfold String.utf8EncodeChar
  dsimp only
  rw [hval]
  by_cases hascii : c.toNat < 128
  · rw [if_pos (by omega)]
    simp [asciiBytes, asciiChars, hascii, Nat.mod_eq_of_lt (show c.toNat < 256 by omega)]
  · rw [if_neg (by omega)]
    -- Every byte of a longer encoding has its highest bit set.
    split_ifs <;> simp [asciiBytes, asciiChars, hascii] <;> omega

theorem asciiBytes_flatMap (text : List Char) :
    asciiBytes (text.flatMap String.utf8EncodeChar) = asciiChars text := by
  induction text with
  | nil => rfl
  | cons c text ih =>
      rw [List.flatMap_cons, asciiBytes, List.countP_append]
      exact (congrArg₂ (· + ·) (asciiBytes_utf8EncodeChar c) ih).trans List.countP_append.symm

theorem asciiChars_cons (c : Char) (text : List Char) :
    asciiChars (c :: text) = asciiChars [c] + asciiChars text := by
  rw [← List.singleton_append]
  exact List.countP_append

theorem isHex_ascii {c : Char} (h : isHex c = true) : c.toNat < 128 := by
  have hle : ∀ limit : Char, limit.toNat < 128 → c ≤ limit → c.toNat < 128 := by
    intro limit hlimit hc
    have hval : c.toNat ≤ limit.toNat := UInt32.le_iff_toNat_le.mp hc
    omega
  simp only [isHex, Char.isDigit, Bool.or_eq_true, Bool.and_eq_true, decide_eq_true_eq] at h
  rcases h with (⟨-, hdigit⟩ | ⟨-, hlower⟩) | ⟨-, hupper⟩
  · exact hle '9' (by decide) hdigit
  · exact hle 'f' (by decide) hlower
  · exact hle 'F' (by decide) hupper

theorem isEscape_ascii {c a b : Char} (h : isEscape c a b = true) :
    c.toNat < 128 ∧ a.toNat < 128 ∧ b.toNat < 128 := by
  simp only [isEscape, Bool.and_eq_true, decide_eq_true_eq] at h
  obtain ⟨⟨rfl, ha⟩, hb⟩ := h
  exact ⟨by decide, isHex_ascii ha, isHex_ascii hb⟩

-- Decoding an escape loses at least two of its three characters.
theorem asciiBytes_unquote (text : List Char) :
    asciiBytes (unquote text) + (if clean text then 0 else 1) ≤ asciiChars text := by
  induction text using unquote.induct with
  | case1 c a b rest hescape ih =>
      obtain ⟨hc, ha, hb⟩ := isEscape_ascii hescape
      have hbytes : asciiBytes (unquote (c :: a :: b :: rest)) ≤ asciiBytes (unquote rest) + 1 := by
        rw [unquote, if_pos hescape, asciiBytes, List.countP_cons]
        split <;> simp [asciiBytes]
      have hchars : asciiChars (c :: a :: b :: rest) = asciiChars rest + 3 := by
        simp [asciiChars, hc, ha, hb]
      split <;> omega
  | case2 c a b rest hescape ih =>
      have hbytes : asciiBytes (unquote (c :: a :: b :: rest)) =
          asciiChars [c] + asciiBytes (unquote (a :: b :: rest)) := by
        rw [unquote, if_neg hescape, ← asciiBytes_utf8EncodeChar]
        exact List.countP_append
      have hchars : asciiChars (c :: a :: b :: rest) =
          asciiChars [c] + asciiChars (a :: b :: rest) := asciiChars_cons c _
      have hclean : clean (c :: a :: b :: rest) = clean (a :: b :: rest) := by
        simp [clean, hescape]
      rw [hclean, hbytes, hchars]
      omega
  | case3 c a =>
      have hbytes := asciiBytes_flatMap [c, a]
      simp only [List.flatMap_cons, List.flatMap_nil, List.append_nil] at hbytes
      rw [unquote, hbytes]
      simp [clean]
  | case4 c =>
      rw [unquote, asciiBytes_utf8EncodeChar]
      simp [clean]
  | case5 => simp [unquote, asciiBytes, asciiChars, clean]

end Ascii

end Percent
