import ComponentGraph.Json.Print
import ComponentGraph.Json.Read
import Mathlib.Algebra.BigOperators.Group.List.Basic
import Mathlib.Tactic.SplitIfs

/-!
What the scanner reads where something was written.

`Yields` says that a scan takes a value off the front of the characters and what it leaves, whatever
the offset. Scans that follow each other are put together by `Yields.bind`, so each step of the
scanner has one lemma here and is not opened again. A string gives back its characters, since every
character is read as one however it is escaped (`yields_stringFrom_escaped`). A number gives back
its value if what follows cannot belong to a number (`Closed`), because its digits are gathered
within sixty-four bits.
-/

set_option autoImplicit false
set_option relaxedAutoImplicit false

namespace ComponentGraph.Json

/-! ### Steps -/

/-- A scan that takes a value off the front of the characters and leaves the rest. -/
def Yields {α : Type} (scan : Scan α) (characters : List Char) (value : α) (left : List Char) :
    Prop :=
  ∀ offset, ∃ after, scan ⟨characters, offset⟩ = .ok (value, ⟨left, after⟩)

section Steps

variable {α β : Type}

theorem yields_pure (value : α) (characters : List Char) :
    Yields (pure value) characters value characters :=
  fun offset ↦ ⟨offset, rfl⟩

theorem Yields.bind {scan : Scan α} {next : α → Scan β} {characters middle left : List Char}
    {found : α} {value : β} (hscan : Yields scan characters found middle)
    (hnext : Yields (next found) middle value left) :
    Yields (scan >>= next) characters value left := by
  intro offset
  obtain ⟨between, hbetween⟩ := hscan offset
  obtain ⟨after, hafter⟩ := hnext between
  refine ⟨after, ?_⟩
  show (scan ⟨characters, offset⟩ >>= fun found ↦ next found.1 found.2) = _
  rw [hbetween]
  exact hafter

/-- A scan that looks at the cursor first. -/
theorem yields_get {next : Cursor → Scan α} {characters left : List Char} {value : α}
    (hnext : ∀ offset, Yields (next ⟨characters, offset⟩) characters value left) :
    Yields (get >>= next) characters value left :=
  fun offset ↦ hnext offset offset

theorem yields_peek? (characters : List Char) :
    Yields peek? characters characters.head? characters :=
  fun offset ↦ ⟨offset, rfl⟩

theorem yields_pass (count : Nat) (characters : List Char) :
    Yields (pass count) characters () (characters.drop count) :=
  fun offset ↦ ⟨offset + byteCount (characters.take count), rfl⟩

theorem yields_next? (character : Char) (characters : List Char) :
    Yields next? (character :: characters) (some character) characters :=
  (yields_peek? _).bind ((yields_pass 1 _).bind (yields_pure _ _))

theorem takeWhile_append_of_head? {test : Char → Bool} {taken characters : List Char}
    (htaken : ∀ character ∈ taken, test character = true)
    (hstop : ∀ character ∈ characters.head?, test character = false) :
    (taken ++ characters).takeWhile test = taken := by
  have hrest : characters.takeWhile test = [] := by
    cases characters with
    | nil => rfl
    | cons first rest => rw [List.takeWhile_cons, hstop first rfl, if_neg Bool.false_ne_true]
  rw [List.takeWhile_append_of_pos htaken, hrest, List.append_nil]

theorem yields_passWhile {test : Char → Bool} {taken characters : List Char}
    (htaken : ∀ character ∈ taken, test character = true)
    (hstop : ∀ character ∈ characters.head?, test character = false) :
    Yields (passWhile test) (taken ++ characters) taken characters := by
  intro offset
  have hpass := yields_pass taken.length (taken ++ characters) offset
  rw [List.drop_left] at hpass
  obtain ⟨after, hafter⟩ := hpass
  refine ⟨after, ?_⟩
  show (pass ((taken ++ characters).takeWhile test).length ⟨taken ++ characters, offset⟩ >>=
    fun found ↦ pure ((taken ++ characters).takeWhile test, found.2)) = _
  rw [takeWhile_append_of_head? htaken hstop, hafter]
  rfl

/-- Blanks in front of a character that is none are passed. -/
theorem yields_peekSolid? {blanks characters : List Char}
    (hblanks : ∀ character ∈ blanks, isBlank character = true)
    (hsolid : ∀ character ∈ characters.head?, isBlank character = false) :
    Yields peekSolid? (blanks ++ characters) characters.head? characters :=
  (yields_passWhile hblanks hsolid).bind (yields_peek? characters)

end Steps

/-! ### Strings -/

theorem yields_escape_letter {letter character : Char} (hletter : letter ≠ 'u')
    (hcharacter : escapeLetter? letter = some character) (characters : List Char) :
    Yields escape (letter :: characters) character characters := by
  refine (yields_peek? _).bind ?_
  rw [List.head?_cons]
  split
  · rename_i hnone
    cases hnone
  · rename_i hu
    exact absurd (Option.some.inj hu) hletter
  · rename_i other _ hother
    cases hother
    rw [hcharacter]
    exact (yields_pass 1 _).bind (yields_pure _ _)

theorem yields_hexEscape {digits : List Char} {number : Nat} (hlength : digits.length = 4)
    (hnumber : hexValue? digits = some number) (characters : List Char) :
    Yields hexEscape (digits ++ characters) number characters := by
  refine yields_get fun offset ↦ ?_
  have htake : (digits ++ characters).take 4 = digits := List.take_left' hlength
  have hpass := yields_pass 4 (digits ++ characters)
  rw [List.drop_left' hlength] at hpass
  dsimp only
  rw [htake, hnumber]
  exact hpass.bind (yields_pure _ _)

theorem hexValue?_of_control : ∀ number < 0x20,
    hexValue? ['0', '0', hexCharacter (number / 16), hexCharacter (number % 16)] =
      some number := by
  decide

theorem yields_escape_number {character : Char} (hcontrol : character.toNat < 0x20)
    (characters : List Char) :
    Yields escape ('u' :: (['0', '0', hexCharacter (character.toNat / 16),
      hexCharacter (character.toNat % 16)] ++ characters)) character characters := by
  refine (yields_peek? _).bind ((yields_pass 1 _).bind ?_)
  have hnumber := hexValue?_of_control character.toNat hcontrol
  refine (yields_hexEscape rfl hnumber characters).bind ?_
  rw [if_neg (by omega), if_neg (by omega), Char.ofNat_toNat]
  exact yields_pure _ _

section StringFrom

variable {fuel : Nat} {latest characters left : List Char} {character : Char} {value : String}
  (hrest : Yields (stringFrom fuel (character :: latest)) characters value left)

include hrest

theorem yields_stringFrom_backslash {code : List Char}
    (hescape : Yields escape code character characters) :
    Yields (stringFrom (fuel + 1) latest) ('\\' :: code) value left := by
  rw [stringFrom]
  exact (yields_next? _ _).bind (hescape.bind hrest)

theorem yields_stringFrom_plain (hquote : character ≠ '"') (hbackslash : character ≠ '\\')
    (hcontrol : ¬ character.toNat < 0x20) :
    Yields (stringFrom (fuel + 1) latest) (character :: characters) value left := by
  rw [stringFrom]
  refine (yields_next? _ _).bind ?_
  split
  · rename_i hnone
    cases hnone
  · rename_i hsame
    exact absurd (Option.some.inj hsame) hquote
  · rename_i hsame
    exact absurd (Option.some.inj hsame) hbackslash
  · rename_i hother
    cases hother
    rwa [if_neg hcontrol]

/-- Every character is read as one, however it is escaped. -/
theorem yields_stringFrom_escaped :
    Yields (stringFrom (fuel + 1) latest) (escaped character ++ characters) value left := by
  have hletter {letter : Char} (hu : letter ≠ 'u')
      (hfound : escapeLetter? letter = some character) :
      Yields (stringFrom (fuel + 1) latest) ('\\' :: letter :: characters) value left :=
    yields_stringFrom_backslash hrest (yields_escape_letter hu hfound characters)
  have hcoded {code : Nat} (hcode : character.toNat = code) : Char.ofNat code = character := by
    rw [← hcode, Char.ofNat_toNat]
  rw [escaped]
  split_ifs with hquote hbackslash hnewline hreturn htab hbackspace hfeed hcontrol
  · exact hletter (by decide) (congrArg some hquote.symm)
  · exact hletter (by decide) (congrArg some hbackslash.symm)
  · exact hletter (by decide) (congrArg some hnewline.symm)
  · exact hletter (by decide) (congrArg some hreturn.symm)
  · exact hletter (by decide) (congrArg some htab.symm)
  · exact hletter (by decide) (congrArg some (hcoded hbackspace))
  · exact hletter (by decide) (congrArg some (hcoded hfeed))
  · exact yields_stringFrom_backslash hrest (yields_escape_number hcontrol characters)
  · exact yields_stringFrom_plain hrest hquote hbackslash hcontrol

end StringFrom

theorem yields_stringFrom (text : List Char) {fuel : Nat} (hfuel : text.length < fuel)
    (latest characters : List Char) :
    Yields (stringFrom fuel latest) (text.flatMap escaped ++ '"' :: characters)
      (String.ofList (latest.reverse ++ text)) characters := by
  induction text generalizing fuel latest with
  | nil =>
    cases fuel with
    | zero => exact absurd hfuel (Nat.not_lt_zero _)
    | succ fuel =>
      rw [stringFrom, List.append_nil]
      exact (yields_next? _ _).bind (yields_pure _ _)
  | cons character text ih =>
    cases fuel with
    | zero => exact absurd hfuel (Nat.not_lt_zero _)
    | succ fuel =>
      have hrest := ih (Nat.lt_of_succ_lt_succ hfuel) (character :: latest)
      rw [List.reverse_cons, List.append_assoc] at hrest
      rw [List.flatMap_cons, List.append_assoc]
      exact yields_stringFrom_escaped hrest

theorem length_le_flatMap_escaped (text : List Char) :
    text.length ≤ (text.flatMap escaped).length := by
  have hpositive (character : Char) : 1 ≤ (escaped character).length := by
    rw [escaped]
    split_ifs <;> exact Nat.succ_pos _
  rw [List.length_flatMap]
  have hsum := List.length_le_sum_of_one_le (text.map fun character ↦ (escaped character).length)
    (List.forall_mem_map.mpr fun character _ ↦ hpositive character)
  rwa [List.length_map] at hsum

/-- A written text is read back up to its closing quote. -/
theorem yields_string (text : String) (characters : List Char) :
    Yields string (text.toList.flatMap escaped ++ '"' :: characters) text characters := by
  refine yields_get fun offset ↦ ?_
  have hfuel : text.toList.length <
      (text.toList.flatMap escaped ++ '"' :: characters).length + 1 := by
    have hlength := length_le_flatMap_escaped text.toList
    rw [List.length_append]
    omega
  have hstring := yields_stringFrom text.toList hfuel [] characters
  rwa [List.reverse_nil, List.nil_append, String.ofList_toList] at hstring

/-! ### Numbers -/

/-- What cannot go on with a number. -/
def Closed (characters : List Char) : Prop :=
  ∀ character ∈ characters.head?,
    isDigit character = false ∧ character ≠ '.' ∧ character ≠ 'e' ∧ character ≠ 'E'

theorem ofDigitChars_cons_ten (number : Nat) (digit : Char) (rest : List Char) :
    Nat.ofDigitChars 10 (digit :: rest) number =
      Nat.ofDigitChars 10 rest (number * 10 + (digit.toNat - 48)) := by
  rw [Nat.ofDigitChars_cons, Nat.mul_comm]
  rfl

theorem le_ofDigitChars (number : Nat) (digits : List Char) :
    number ≤ Nat.ofDigitChars 10 digits number := by
  rw [Nat.ofDigitChars_eq_ofDigitChars_zero]
  have hpower : number ≤ 10 ^ digits.length * number :=
    Nat.le_mul_of_pos_left number (Nat.pow_pos (Nat.succ_pos 9))
  exact Nat.le_trans hpower (Nat.le_add_right _ _)

/-- All digits are gathered if the number they make is in range. -/
theorem gather_eq {number : Nat} (count : Nat) {digits : List Char}
    (hrange : Nat.ofDigitChars 10 digits number ≤ largestNatural) :
    gather number count digits =
      (Nat.ofDigitChars 10 digits number, count + digits.length, 0) := by
  induction digits generalizing number count with
  | nil => rfl
  | cons digit rest ih =>
    rw [ofDigitChars_cons_ten] at hrange ⊢
    have hlonger : number * 10 + (digit.toNat - 48) ≤ largestNatural :=
      Nat.le_trans (le_ofDigitChars _ rest) hrange
    rw [gather, if_pos hlonger, ih (count + 1) hrange, List.length_cons, Nat.add_right_comm,
      Nat.add_assoc]

theorem head?_toDigits_ne_zero {number : Nat} (hpositive : number ≠ 0) :
    (Nat.toDigits 10 number).head? ≠ some '0' := by
  induction number using Nat.strongRecOn with
  | _ number ih =>
    by_cases hsmall : number < 10
    · have hdigits : ∀ digit < 10, digit ≠ 0 → digit.digitChar ≠ '0' := by decide
      rw [Nat.toDigits_of_lt_base hsmall, List.head?_cons]
      exact fun hzero ↦ hdigits number hsmall hpositive (Option.some.inj hzero)
    · rw [Nat.toDigits_of_base_le (by decide) (Nat.le_of_not_lt hsmall),
        List.head?_append_of_ne_nil _ Nat.toDigits_ne_nil]
      exact ih (number / 10) (by omega) (by omega)

theorem isDigit_of_mem_toDigits {number : Nat} {digit : Char}
    (hdigit : digit ∈ Nat.toDigits 10 number) : isDigit digit = true := by
  have hchar := Nat.isDigit_of_mem_toDigits (by decide) (by decide) hdigit
  rw [Char.isDigit, Bool.and_eq_true] at hchar
  exact Bool.and_eq_true_iff.mpr hchar

theorem yields_afterDigits (number : Nat) {characters : List Char} (hclosed : Closed characters) :
    Yields (afterDigits false number 0) characters (.whole number) characters := by
  refine (yields_peek? _).bind ?_
  split
  · rename_i hpoint
    exact absurd rfl (hclosed _ hpoint).2.1
  · rename_i hsmall
    exact absurd rfl (hclosed _ hsmall).2.2.1
  · rename_i hlarge
    exact absurd rfl (hclosed _ hlarge).2.2.2
  · exact yields_pure _ _

/-- A written number is read back. Assumes: it has at most sixty-four bits, and what follows cannot
go on with it. -/
theorem yields_number {value : Nat} (hrange : value ≤ largestNatural) {characters : List Char}
    (hclosed : Closed characters) :
    Yields (number false) (Nat.toDigits 10 value ++ characters) (.whole value) characters := by
  by_cases hzero : value = 0
  · subst hzero
    rw [Nat.toDigits_zero]
    refine (yields_peek? _).bind ((yields_pass 1 _).bind ((yields_peek? _).bind ?_))
    show Yields _ characters _ characters
    split
    · rename_i following hfollowing
      rw [(hclosed following hfollowing).1, if_neg Bool.false_ne_true]
      exact yields_afterDigits 0 hclosed
    · exact yields_afterDigits 0 hclosed
  · have hdigits := @isDigit_of_mem_toDigits value
    have hstop (character : Char) (hcharacter : character ∈ characters.head?) :=
      (hclosed character hcharacter).1
    have hgather : gather 0 0 (Nat.toDigits 10 value) =
        (value, 0 + (Nat.toDigits 10 value).length, 0) := by
      have hvalue := @Nat.ofDigitChars_ten_toDigits value
      rw [gather_eq 0 (by rwa [hvalue]), hvalue]
    refine (yields_peek? _).bind ?_
    rw [List.head?_append_of_ne_nil _ Nat.toDigits_ne_nil]
    split
    · rename_i hnone
      exact absurd (List.head?_eq_none_iff.mp hnone) Nat.toDigits_ne_nil
    · rename_i hfirst
      exact absurd hfirst (head?_toDigits_ne_zero hzero)
    · rename_i digit _ hfirst
      rw [if_pos (hdigits (List.mem_of_head? hfirst))]
      refine (yields_passWhile (fun _ ↦ hdigits) hstop).bind ?_
      rw [hgather]
      exact yields_afterDigits value hclosed

/-! ### Between items and members -/

/-- The beginning of a value that may stand in a list. -/
def Starts (characters : List Char) : Prop :=
  ∃ first rest, characters = first :: rest ∧ isBlank first = false ∧ first ≠ ']'

section Between

variable {blanks : List Char} (hblanks : ∀ character ∈ blanks, isBlank character = true)
  (characters : List Char)

include hblanks

theorem yields_peekSolid?_cons {first : Char} (hsolid : isBlank first = false) :
    Yields peekSolid? (blanks ++ first :: characters) (some first) (first :: characters) :=
  yields_peekSolid? hblanks fun _ hfirst ↦ Option.some.inj hfirst ▸ hsolid

theorem yields_moreItems_end (first : Bool) :
    Yields (moreItems first) (blanks ++ ']' :: characters) false (']' :: characters) :=
  (yields_peekSolid?_cons hblanks characters rfl).bind (yields_pure _ _)

theorem yields_moreItems_first {characters : List Char} (hstarts : Starts characters) :
    Yields (moreItems true) (blanks ++ characters) true characters := by
  obtain ⟨first, rest, rfl, hsolid, hend⟩ := hstarts
  refine (yields_peekSolid?_cons hblanks rest hsolid).bind ?_
  split
  · rename_i hnone
    cases hnone
  · rename_i hsame
    exact absurd (Option.some.inj hsame) hend
  · exact yields_pure _ _

theorem yields_moreItems_next {characters : List Char} (hstarts : Starts characters) :
    Yields (moreItems false) (',' :: (blanks ++ characters)) true characters := by
  obtain ⟨first, rest, rfl, hsolid, hend⟩ := hstarts
  refine (yields_peekSolid?_cons (List.forall_mem_nil _) _ rfl).bind ((yields_pass 1 _).bind ?_)
  refine (yields_peekSolid?_cons hblanks rest hsolid).bind ?_
  split
  · rename_i hnone
    cases hnone
  · rename_i hsame
    exact absurd (Option.some.inj hsame) hend
  · exact yields_pure _ _

theorem yields_closeList : Yields closeList (blanks ++ ']' :: characters) () characters :=
  (yields_peekSolid?_cons hblanks characters rfl).bind (yields_pass 1 _)

theorem yields_moreMembers_end (first : Bool) :
    Yields (moreMembers first) (blanks ++ '}' :: characters) false ('}' :: characters) :=
  (yields_peekSolid?_cons hblanks characters rfl).bind (yields_pure _ _)

theorem yields_moreMembers_first :
    Yields (moreMembers true) (blanks ++ '"' :: characters) true ('"' :: characters) :=
  (yields_peekSolid?_cons hblanks characters rfl).bind
    ((yields_peekSolid?_cons (List.forall_mem_nil _) characters rfl).bind (yields_pure _ _))

theorem yields_moreMembers_next :
    Yields (moreMembers false) (',' :: (blanks ++ '"' :: characters)) true ('"' :: characters) := by
  refine (yields_peekSolid?_cons (List.forall_mem_nil _) _ rfl).bind ((yields_pass 1 _).bind ?_)
  exact (yields_peekSolid?_cons hblanks characters rfl).bind (yields_pure _ _)

theorem yields_closeObject : Yields closeObject (blanks ++ '}' :: characters) () characters :=
  (yields_peekSolid?_cons hblanks characters rfl).bind (yields_pass 1 _)

omit hblanks in
theorem yields_colon : Yields colon (':' :: characters) () characters :=
  (yields_peekSolid?_cons (List.forall_mem_nil _) characters rfl).bind (yields_pass 1 _)

/-- Nothing but blanks is left at the end. -/
theorem yields_finishText : Yields finishText blanks () [] := by
  have hnothing : ∀ character ∈ ([] : List Char).head?, isBlank character = false :=
    fun _ hnone ↦ nomatch hnone
  have hpeek := yields_peekSolid? hblanks hnothing
  rw [List.append_nil] at hpeek
  exact hpeek.bind (yields_pure _ _)

end Between

/-- A text is read as a whole if a value is read off its front and only blanks are left. -/
theorem readAll_eq {α : Type} {reader : Scan α} {text : String} {value : α} {blanks : List Char}
    (hreader : Yields reader text.toList value blanks)
    (hblanks : ∀ character ∈ blanks, isBlank character = true) :
    readAll reader text = .ok value := by
  have hwhole : Yields (do let found ← reader; finishText; return found) text.toList value [] :=
    hreader.bind ((yields_finishText hblanks).bind (yields_pure value _))
  obtain ⟨after, hafter⟩ := hwhole 0
  rw [readAll, Cursor.ofText, StateT.run, hafter]
  rfl

end ComponentGraph.Json
