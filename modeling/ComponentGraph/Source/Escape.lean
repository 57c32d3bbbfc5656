/-!
Escape sequences in string literals, templates and names. `readEscape` reads what stands after a
backslash; it always consumes at least one character, so the scanners that call it come to an end.
-/

set_option autoImplicit false
set_option relaxedAutoImplicit false

namespace ComponentGraph.Source

/-- The value of a hexadecimal digit. -/
def hexValue? (character : Char) : Option Nat :=
  if '0' ≤ character ∧ character ≤ '9' then some (character.toNat - 48)
  else if 'a' ≤ character ∧ character ≤ 'f' then some (character.toNat - 87)
  else if 'A' ≤ character ∧ character ≤ 'F' then some (character.toNat - 55)
  else none

/-- Whether a character is a hexadecimal digit. -/
def isHexDigit (character : Char) : Bool :=
  (hexValue? character).isSome

/-- Whether a character is a decimal digit. -/
def isDecimalDigit (character : Char) : Bool :=
  '0' ≤ character && character ≤ '9'

/-- Whether a character is an octal digit. -/
def isOctalDigit (character : Char) : Bool :=
  '0' ≤ character && character ≤ '7'

/-- Ends a line: line feed, carriage return, line separator, paragraph separator. -/
def isLineBreak (character : Char) : Bool :=
  character == '\n' || character == '\r' || character.toNat == 0x2028 ||
    character.toNat == 0x2029

/-- The text without a separator at its beginning that stands before a digit. -/
def skipSeparator : List Char → List Char
  | '_' :: digit :: rest => if isHexDigit digit then digit :: rest else '_' :: digit :: rest
  | text => text

/-- Reads so many hexadecimal digits onto a number; separators may stand before them. -/
def readDigits : Nat → Nat → List Char → Option (Nat × List Char)
  | 0, value, text => some (value, text)
  | count + 1, value, text =>
      match skipSeparator text with
      | [] => none
      | digit :: rest =>
          match hexValue? digit with
          | none => none
          | some found => readDigits count (value * 16 + found) rest

/-- The number that digits in braces write, with separators before some of them. -/
def bracedNumber? : Nat → List Char → Option Nat
  | value, [] => some value
  | _, ['_'] => none
  | _, '_' :: '_' :: _ => none
  | value, '_' :: rest => bracedNumber? value rest
  | value, digit :: rest =>
      (hexValue? digit).bind (fun found ↦ bracedNumber? (value * 16 + found) rest)

/-- A code point given after `\u`: four digits, or any number of them in braces. -/
def readCodePoint : List Char → Option (Nat × List Char)
  | '{' :: after =>
      match after.dropWhile (· != '}') with
      | [] => none
      | _ :: rest =>
          let digits := after.takeWhile (· != '}')
          match bracedNumber? 0 digits with
          | some value =>
              if digits.isEmpty || value > 0x10FFFF then none else some (value, rest)
          | none => none
  | text => readDigits 4 0 text

/-- What an escape sequence stands for: its code points, whether it is of the old octal kind, and
the text behind it. -/
structure Escape where
  codes : List Nat
  legacy : Bool
  rest : List Char

/-- Reads an octal escape of at most three digits whose value stays below 256. -/
def readOctal (text : List Char) : Escape :=
  match text with
  | a :: b :: c :: rest =>
      if isOctalDigit a && isOctalDigit b && isOctalDigit c && a ≤ '3' then
        ⟨[(a.toNat - 48) * 64 + (b.toNat - 48) * 8 + (c.toNat - 48)], true, rest⟩
      else if isOctalDigit a && isOctalDigit b then
        ⟨[(a.toNat - 48) * 8 + (b.toNat - 48)], true, c :: rest⟩
      else ⟨[a.toNat - 48], true, b :: c :: rest⟩
  | [a, b] =>
      if isOctalDigit b then ⟨[(a.toNat - 48) * 8 + (b.toNat - 48)], true, []⟩
      else ⟨[a.toNat - 48], true, [b]⟩
  | [a] => ⟨[a.toNat - 48], true, []⟩
  | [] => ⟨[], true, []⟩

/-- Whether the text goes on with `\u` but without the four digits of a code unit. -/
def beginsBrokenUnit : List Char → Bool
  | '\\' :: 'u' :: text => (readDigits 4 0 text).isNone
  | _ => false

/-- Reads a code point given after `\u`. The first half of a surrogate pair, given by four digits,
is read together with a code unit behind it, which therefore must not be broken. -/
def readUnicode (text : List Char) : Option (Nat × List Char) :=
  match readCodePoint text with
  | none => none
  | some (value, rest) =>
      if text.head? != some '{' && 0xD800 ≤ value && value < 0xDC00 && beginsBrokenUnit rest then
        none
      else some (value, rest)

/-- Reads the escape sequence whose backslash stands before the text. -/
def readEscape (text : List Char) : Option Escape :=
  match text with
  | [] => none
  | '\r' :: '\n' :: rest => some ⟨[], false, rest⟩
  | 'u' :: after => (readUnicode after).map (fun found ↦ ⟨[found.1], false, found.2⟩)
  | 'x' :: after => (readDigits 2 0 after).map (fun found ↦ ⟨[found.1], false, found.2⟩)
  | first :: rest =>
      if isLineBreak first then some ⟨[], false, rest⟩
      else if first == 'n' then some ⟨[10], false, rest⟩
      else if first == 't' then some ⟨[9], false, rest⟩
      else if first == 'r' then some ⟨[13], false, rest⟩
      else if first == 'b' then some ⟨[8], false, rest⟩
      else if first == 'v' then some ⟨[11], false, rest⟩
      else if first == 'f' then some ⟨[12], false, rest⟩
      else if first == '0' && !(rest.head?.any isOctalDigit) then some ⟨[0], false, rest⟩
      else if isOctalDigit first then some (readOctal (first :: rest))
      else some ⟨[first.toNat], false, rest⟩

/-- Skipping a separator makes a text no longer. -/
theorem skipSeparator_length_le (text : List Char) :
    (skipSeparator text).length ≤ text.length := by
  unfold skipSeparator
  split
  · split
    · simp only [List.length_cons]
      omega
    · exact Nat.le_refl _
  · exact Nat.le_refl _

/-- Reading digits takes at least one character for each of them. -/
theorem readDigits_rest_length {text rest : List Char} {value result : Nat} (count : Nat)
    (h : readDigits count value text = some (result, rest)) :
    rest.length + count ≤ text.length := by
  induction count generalizing text value with
  | zero =>
    simp only [readDigits, Option.some.injEq, Prod.mk.injEq] at h
    rw [h.2]
    omega
  | succ count ih =>
    have hskip := skipSeparator_length_le text
    unfold readDigits at h
    split at h
    · simp at h
    · rename_i digit later hlater
      rw [hlater] at hskip
      simp only [List.length_cons] at hskip
      split at h
      · simp at h
      · have hrest := ih h
        omega

/-- The digits of a code point are never missing. -/
theorem readCodePoint_rest_length {text rest : List Char} {value : Nat}
    (h : readCodePoint text = some (value, rest)) : rest.length < text.length := by
  unfold readCodePoint at h
  split at h
  · rename_i after
    have hdrop : (after.dropWhile (· != '}')).length ≤ after.length :=
      (List.dropWhile_suffix (· != '}')).length_le
    split at h
    · simp at h
    · rename_i later hlater
      rw [hlater] at hdrop
      dsimp only at h
      split at h
      · split at h
        · simp at h
        · simp only [Option.some.injEq, Prod.mk.injEq] at h
          rw [← h.2]
          simp only [List.length_cons] at hdrop ⊢
          omega
      · simp at h
  · have hrest := readDigits_rest_length 4 h
    omega

/-- The digits of a code point in an escape are never missing. -/
theorem readUnicode_rest_length {text rest : List Char} {value : Nat}
    (h : readUnicode text = some (value, rest)) : rest.length < text.length := by
  unfold readUnicode at h
  split at h
  · simp at h
  · rename_i found later hread
    split at h
    · simp at h
    · simp only [Option.some.injEq, Prod.mk.injEq] at h
      rw [← h.2]
      exact readCodePoint_rest_length hread

/-- An octal escape takes at least its first digit. -/
theorem readOctal_rest_length (first : Char) (later : List Char) :
    (readOctal (first :: later)).rest.length < (first :: later).length := by
  rcases later with _ | ⟨second, _ | ⟨third, rest⟩⟩
  · simp [readOctal]
  · simp only [readOctal]
    split
    · simp only [List.length_cons, List.length_nil]
      omega
    · simp only [List.length_cons, List.length_nil]
      omega
  · simp only [readOctal]
    split
    · simp only [List.length_cons]
      omega
    · split
      · simp only [List.length_cons]
        omega
      · simp only [List.length_cons]
        omega

/-- An escape sequence is never empty. -/
theorem readEscape_rest_length {text : List Char} {escape : Escape}
    (h : readEscape text = some escape) : escape.rest.length < text.length := by
  unfold readEscape at h
  split at h
  · simp at h
  · cases h
    simp only [List.length_cons]
    omega
  · rename_i after
    simp only [Option.map_eq_some_iff] at h
    obtain ⟨⟨value, rest⟩, hread, rfl⟩ := h
    have hrest := readUnicode_rest_length hread
    simp only [List.length_cons]
    omega
  · simp only [Option.map_eq_some_iff] at h
    obtain ⟨⟨value, rest⟩, hread, rfl⟩ := h
    have hrest := readDigits_rest_length 2 hread
    simp only [List.length_cons]
    omega
  · rename_i first rest _ _ _
    have hoctal := readOctal_rest_length first rest
    have hshort : rest.length < (first :: rest).length := by simp only [List.length_cons]; omega
    repeat' split at h
    all_goals
      cases h
      first | exact hshort | exact hoctal

/-- Puts the characters with these code points behind those already `found`, which are in reverse
order; a surrogate needs its partner. -/
def appendCharacters? : List Nat → List Char → Option (List Char)
  | [], found => some found.reverse
  | high :: low :: later, found =>
      if 0xD800 ≤ high ∧ high < 0xDC00 ∧ 0xDC00 ≤ low ∧ low < 0xE000 then
        appendCharacters? later
          (Char.ofNat (0x10000 + (high - 0xD800) * 0x400 + (low - 0xDC00)) :: found)
      else if 0xD800 ≤ high ∧ high < 0xE000 then none
      else appendCharacters? (low :: later) (Char.ofNat high :: found)
  | [code], found =>
      if 0xD800 ≤ code ∧ code < 0xE000 then none else some (Char.ofNat code :: found).reverse

/-- The text with these code points, if it is well formed. -/
def textOf? (codes : List Nat) : Option String :=
  (appendCharacters? codes []).map String.ofList

end ComponentGraph.Source
