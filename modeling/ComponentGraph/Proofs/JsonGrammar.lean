import ComponentGraph.Proofs.RoundTrip

/-!
# The grammar of JSON and what the scanner makes of it

`Value` says which characters are a value of the data format: a word, a number, a string, or a list
or object of values with blanks anywhere between their parts. Strings are taken as they are written;
which text one stands for, if it stands for one, is said by `Spells`.

Passing over a value takes all of it and nothing else (`Value.passed`), since the fuel is never used
up: every round passes a character. Reading is weaker. A number can be out of range, and an escape
can leave half of a pair, so the reader may fail; but where it does not fail, it has taken the same
characters (`Body.meets_string`, `Number.meets_scalar?`). `Meets` says what holds of the results of
a scan that may fail, and scans that follow each other are put together by `Meets.bind`.

Scans that look for the next character that is no blank do not notice blanks in front of it
(`Patient`).
-/

set_option autoImplicit false
set_option relaxedAutoImplicit false

namespace ComponentGraph.Json

/-! ### Scans that may fail -/

/-- A scan whose value and whose rest are as described, if it has any. -/
def Meets {α : Type} (scan : Scan α) (characters : List Char) (result : α → List Char → Prop) :
    Prop :=
  ∀ offset value cursor, scan ⟨characters, offset⟩ = .ok (value, cursor) → result value cursor.rest

section Meets

variable {α β : Type} {characters : List Char}

theorem Meets.bind {scan : Scan α} {next : α → Scan β} {found : α → List Char → Prop}
    {result : β → List Char → Prop} (hscan : Meets scan characters found)
    (hnext : ∀ value left, found value left → Meets (next value) left result) :
    Meets (scan >>= next) characters result := by
  intro offset value cursor hok
  cases hfirst : scan ⟨characters, offset⟩ with
  | error failure =>
    have hfails : (scan >>= next) ⟨characters, offset⟩ = .error failure := by
      show (scan ⟨characters, offset⟩ >>= fun found ↦ next found.1 found.2) = _
      rw [hfirst]
      rfl
    cases hfails.symm.trans hok
  | ok first =>
    have hsecond : (scan >>= next) ⟨characters, offset⟩ = next first.1 first.2 := by
      show (scan ⟨characters, offset⟩ >>= fun found ↦ next found.1 found.2) = _
      rw [hfirst]
      rfl
    exact hnext first.1 first.2.rest (hscan offset first.1 first.2 hfirst) first.2.offset value
      cursor (hsecond.symm.trans hok)

theorem Yields.meets {scan : Scan α} {value : α} {left : List Char}
    (hscan : Yields scan characters value left) :
    Meets scan characters fun found rest ↦ found = value ∧ rest = left := by
  intro offset found cursor hok
  obtain ⟨after, hafter⟩ := hscan offset
  cases hafter.symm.trans hok
  exact ⟨rfl, rfl⟩

theorem Yields.bind_meets {scan : Scan α} {next : α → Scan β} {found : α} {middle : List Char}
    {result : β → List Char → Prop} (hscan : Yields scan characters found middle)
    (hnext : Meets (next found) middle result) : Meets (scan >>= next) characters result := by
  refine hscan.meets.bind ?_
  rintro _ _ ⟨rfl, rfl⟩
  exact hnext

theorem Meets.imp {scan : Scan α} {found result : α → List Char → Prop}
    (hscan : Meets scan characters found)
    (himp : ∀ value left, found value left → result value left) : Meets scan characters result :=
  fun offset value cursor hok ↦ himp value cursor.rest (hscan offset value cursor hok)

theorem meets_pure {value : α} {result : α → List Char → Prop} (hresult : result value characters) :
    Meets (pure value) characters result := by
  intro offset found cursor hok
  cases hok
  exact hresult

theorem meets_get {next : Cursor → Scan α} {result : α → List Char → Prop}
    (hnext : ∀ offset, Meets (next ⟨characters, offset⟩) characters result) :
    Meets (get >>= next) characters result :=
  fun offset ↦ hnext offset offset

theorem meets_failHere (reason : Reason) (result : α → List Char → Prop) :
    Meets (failHere reason) characters result :=
  fun _ _ _ hok ↦ nomatch hok

theorem meets_failAhead (reason : Reason) (result : α → List Char → Prop) :
    Meets (failAhead reason) characters result :=
  fun _ _ _ hok ↦ nomatch hok

end Meets

/-! ### Blanks -/

/-- Characters that may stand between the parts of a value. -/
def Blanks (characters : List Char) : Prop :=
  ∀ character ∈ characters, isBlank character = true

instance (characters : List Char) : Decidable (Blanks characters) :=
  -- decided along the list; there is another way, through all characters that there are
  List.decidableBAll (isBlank · = true) characters

/-- A scan that does not notice blanks in front of what it reads. -/
def Patient {α : Type} (scan : Scan α) : Prop :=
  ∀ blanks characters offset, Blanks blanks →
    scan ⟨blanks ++ characters, offset⟩ = scan ⟨characters, offset + byteCount blanks⟩

section Patient

variable {α β : Type} {scan : Scan α} {blanks characters : List Char}

theorem byteCount_append (first second : List Char) :
    byteCount (first ++ second) = byteCount first + byteCount second := by
  induction first with
  | nil => exact (Nat.zero_add _).symm
  | cons character rest ih =>
    have hcons (more : List Char) :
        byteCount (character :: more) = character.utf8Size + byteCount more := rfl
    rw [List.cons_append, hcons, hcons, ih, Nat.add_assoc]

theorem patient_peekSolid? : Patient peekSolid? := by
  intro blanks characters offset hblanks
  have hafter (all : List Char) (offset : Nat) : peekSolid? ⟨all, offset⟩ =
      .ok ((all.drop (all.takeWhile isBlank).length).head?,
        ⟨all.drop (all.takeWhile isBlank).length,
          offset + byteCount (all.take (all.takeWhile isBlank).length)⟩) := rfl
  rw [hafter, hafter, List.takeWhile_append_of_pos hblanks, List.length_append,
    List.drop_length_add_append, List.take_length_add_append, byteCount_append, Nat.add_assoc]

theorem Patient.bind (hscan : Patient scan) (next : α → Scan β) : Patient (scan >>= next) := by
  intro blanks characters offset hblanks
  show (scan _ >>= fun found ↦ next found.1 found.2) =
    (scan _ >>= fun found ↦ next found.1 found.2)
  rw [hscan blanks characters offset hblanks]

theorem Patient.yields (hscan : Patient scan) (hblanks : Blanks blanks) {value : α}
    {left : List Char} (hyields : Yields scan characters value left) :
    Yields scan (blanks ++ characters) value left := by
  intro offset
  rw [hscan blanks characters offset hblanks]
  exact hyields _

theorem Patient.meets (hscan : Patient scan) (hblanks : Blanks blanks)
    {result : α → List Char → Prop} (hmeets : Meets scan characters result) :
    Meets scan (blanks ++ characters) result := by
  intro offset value cursor hok
  rw [hscan blanks characters offset hblanks] at hok
  exact hmeets _ _ _ hok

end Patient

/-! ### Strings -/

/-- The characters between the quotes of a string. -/
inductive Body : List Char → Prop where
  | nil : Body []
  | plain {character : Char} {rest : List Char} (hquote : character ≠ '"')
      (hbackslash : character ≠ '\\') (hcontrol : ¬ character.toNat < 0x20) (hrest : Body rest) :
      Body (character :: rest)
  | letter {letter : Char} {rest : List Char} (hletter : (escapeLetter? letter).isSome = true)
      (hrest : Body rest) : Body ('\\' :: letter :: rest)
  | number {digits rest : List Char} {number : Nat} (hdigits : hexValue? digits = some number)
      (hrest : Body rest) : Body ('\\' :: 'u' :: (digits ++ rest))

/-- The text that the characters between the quotes stand for. A number beyond the first plane of
characters is given by two halves. -/
inductive Spells : List Char → List Char → Prop where
  | nil : Spells [] []
  | plain {character : Char} {rest text : List Char} (hquote : character ≠ '"')
      (hbackslash : character ≠ '\\') (hcontrol : ¬ character.toNat < 0x20)
      (hrest : Spells rest text) : Spells (character :: rest) (character :: text)
  | letter {letter character : Char} {rest text : List Char}
      (hletter : escapeLetter? letter = some character) (hrest : Spells rest text) :
      Spells ('\\' :: letter :: rest) (character :: text)
  | number {digits rest text : List Char} {number : Nat} (hdigits : hexValue? digits = some number)
      (hwhole : number < 0xD800 ∨ 0xDFFF < number) (hrest : Spells rest text) :
      Spells ('\\' :: 'u' :: (digits ++ rest)) (Char.ofNat number :: text)
  | pair {digits more rest text : List Char} {first second : Nat}
      (hdigits : hexValue? digits = some first) (hfirst : 0xD800 ≤ first ∧ first ≤ 0xDBFF)
      (hmore : hexValue? more = some second) (hsecond : 0xDC00 ≤ second ∧ second ≤ 0xDFFF)
      (hrest : Spells rest text) :
      Spells ('\\' :: 'u' :: (digits ++ '\\' :: 'u' :: (more ++ rest)))
        (Char.ofNat (0x10000 + (first - 0xD800) * 0x400 + (second - 0xDC00)) :: text)

theorem length_of_hexValue? {digits : List Char} {number : Nat}
    (hdigits : hexValue? digits = some number) : digits.length = 4 := by
  unfold hexValue? at hdigits
  split at hdigits
  · rfl
  · cases hdigits

theorem Spells.body {characters text : List Char} (hspells : Spells characters text) :
    Body characters := by
  induction hspells with
  | nil => exact .nil
  | plain hquote hbackslash hcontrol _ ih => exact .plain hquote hbackslash hcontrol ih
  | letter hletter _ ih => exact .letter (Option.isSome_of_eq_some hletter) ih
  | number hdigits _ _ ih => exact .number hdigits ih
  | pair hdigits _ hmore _ _ ih => exact .number hdigits (.number hmore ih)

/-- Half of a pair that nothing follows stands for no text. -/
theorem not_spells_half {digits : List Char} {half : Nat} (hdigits : hexValue? digits = some half)
    (hhalf : 0xD800 ≤ half ∧ half ≤ 0xDFFF) (text : List Char) :
    ¬ Spells ('\\' :: 'u' :: digits) text := by
  intro hspells
  have hlength := length_of_hexValue? hdigits
  generalize hcharacters : '\\' :: 'u' :: digits = characters at hspells
  cases hspells with
  | nil => cases hcharacters
  | plain _ hbackslash => exact hbackslash (List.cons.inj hcharacters).1.symm
  | letter hletter =>
    cases hcharacters
    cases hletter
  | @number more rest _ number hmore hwhole =>
    have hsame : digits = more ++ rest := (List.cons.inj (List.cons.inj hcharacters).2).2
    have hrest : rest = [] := by
      have htotal := congrArg List.length hsame
      rw [List.length_append, hlength, length_of_hexValue? hmore] at htotal
      exact List.length_eq_zero_iff.mp (by omega)
    rw [hsame, hrest, List.append_nil, hmore, Option.some.injEq] at hdigits
    omega
  | @pair first second rest _ _ _ hfirst =>
    have hsame : digits = first ++ '\\' :: 'u' :: (second ++ rest) :=
      (List.cons.inj (List.cons.inj hcharacters).2).2
    have htotal := congrArg List.length hsame
    rw [List.length_append, hlength, length_of_hexValue? hfirst, List.length_cons] at htotal
    omega

/-- A text is spelled by what is written of it. -/
theorem spells_escaped (text : List Char) : Spells (text.flatMap escaped) text := by
  induction text with
  | nil => exact .nil
  | cons character rest ih =>
    have hcoded {code : Nat} (hcode : character.toNat = code) : Char.ofNat code = character := by
      rw [← hcode, Char.ofNat_toNat]
    rw [List.flatMap_cons, escaped]
    split_ifs with hquote hbackslash hnewline hreturn htab hbackspace hfeed hcontrol
    · exact .letter (congrArg some hquote.symm) ih
    · exact .letter (congrArg some hbackslash.symm) ih
    · exact .letter (congrArg some hnewline.symm) ih
    · exact .letter (congrArg some hreturn.symm) ih
    · exact .letter (congrArg some htab.symm) ih
    · exact .letter (congrArg some (hcoded hbackspace)) ih
    · exact .letter (congrArg some (hcoded hfeed)) ih
    · have hnumber := hexValue?_of_control character.toNat hcontrol
      have hspells := Spells.number hnumber (Or.inl (by omega)) ih
      rwa [Char.ofNat_toNat] at hspells
    · exact .plain hquote hbackslash hcontrol ih

section Strings

variable {characters text rest : List Char}

theorem yields_demandInString (expected : Char) (rest : List Char) :
    Yields (demandInString expected) (expected :: rest) () rest := by
  refine (yields_peek? _).bind ?_
  rw [List.head?_cons]
  show Yields (if expected = expected then pass 1 else _) _ _ _
  rw [if_pos rfl]
  exact yields_pass 1 _

theorem meets_demandInString (expected : Char) (characters : List Char) :
    Meets (demandInString expected) characters fun _ left ↦ characters = expected :: left := by
  refine (yields_peek? _).bind_meets ?_
  cases characters with
  | nil => exact meets_failHere _ _
  | cons character rest =>
    show Meets (if character = expected then pass 1 else _) _ _
    split
    · rename_i hsame
      subst hsame
      refine (yields_pass 1 _).meets.imp ?_
      rintro _ _ ⟨_, rfl⟩
      rfl
    · exact meets_failAhead _ _

theorem yields_numberedEscape {digits : List Char} {number : Nat}
    (hdigits : hexValue? digits = some number) (hwhole : number < 0xD800 ∨ 0xDFFF < number)
    (rest : List Char) :
    Yields numberedEscape (digits ++ rest) (Char.ofNat number) rest := by
  refine (yields_hexEscape (length_of_hexValue? hdigits) hdigits rest).bind ?_
  rw [if_neg (by omega), if_neg (by omega)]
  exact yields_pure _ _

theorem yields_numberedEscape_pair {digits more : List Char} {first second : Nat}
    (hdigits : hexValue? digits = some first) (hfirst : 0xD800 ≤ first ∧ first ≤ 0xDBFF)
    (hmore : hexValue? more = some second) (hsecond : 0xDC00 ≤ second ∧ second ≤ 0xDFFF)
    (rest : List Char) :
    Yields numberedEscape (digits ++ '\\' :: 'u' :: (more ++ rest))
      (Char.ofNat (0x10000 + (first - 0xD800) * 0x400 + (second - 0xDC00))) rest := by
  refine (yields_hexEscape (length_of_hexValue? hdigits) hdigits _).bind ?_
  rw [if_neg (by omega), if_pos hfirst]
  refine (yields_demandInString _ _).bind ((yields_demandInString _ _).bind ?_)
  refine (yields_hexEscape (length_of_hexValue? hmore) hmore rest).bind ?_
  rw [if_pos hsecond]
  exact yields_pure _ _

theorem yields_escape_u {character : Char}
    (hescape : Yields numberedEscape characters character rest) :
    Yields escape ('u' :: characters) character rest :=
  (yields_peek? _).bind ((yields_pass 1 _).bind hescape)

theorem ne_u_of_escapeLetter? {letter : Char} (hletter : (escapeLetter? letter).isSome = true) :
    letter ≠ 'u' := by
  rintro rfl
  cases hletter

/-- A text that is spelled between quotes is read. -/
theorem Spells.yields_stringFrom (hspells : Spells characters text) {fuel : Nat}
    (hfuel : characters.length < fuel) (latest rest : List Char) :
    Yields (stringFrom fuel latest) (characters ++ '"' :: rest)
      (String.ofList (latest.reverse ++ text)) rest := by
  induction hspells generalizing fuel latest with
  | nil =>
    obtain ⟨fuel, rfl⟩ := Nat.exists_eq_add_one_of_ne_zero (Nat.ne_zero_of_lt hfuel)
    rw [stringFrom, List.append_nil]
    exact (yields_next? _ _).bind (yields_pure _ _)
  | @plain character later text hquote hbackslash hcontrol _ ih =>
    obtain ⟨fuel, rfl⟩ := Nat.exists_eq_add_one_of_ne_zero (Nat.ne_zero_of_lt hfuel)
    have hlater := ih (Nat.lt_of_succ_lt_succ hfuel) (character :: latest)
    rw [List.reverse_cons, List.append_assoc] at hlater
    exact yields_stringFrom_plain hlater hquote hbackslash hcontrol
  | @letter letter character later text hletter _ ih =>
    obtain ⟨fuel, rfl⟩ := Nat.exists_eq_add_one_of_ne_zero (Nat.ne_zero_of_lt hfuel)
    have hlength : later.length < fuel := by
      simp only [List.length_cons] at hfuel
      omega
    have hlater := ih hlength (character :: latest)
    rw [List.reverse_cons, List.append_assoc] at hlater
    have hother := ne_u_of_escapeLetter? (Option.isSome_of_eq_some hletter)
    exact yields_stringFrom_backslash hlater (yields_escape_letter hother hletter _)
  | @number digits later text number hdigits hwhole _ ih =>
    obtain ⟨fuel, rfl⟩ := Nat.exists_eq_add_one_of_ne_zero (Nat.ne_zero_of_lt hfuel)
    have hlength : later.length < fuel := by
      simp only [List.length_cons, List.length_append] at hfuel
      omega
    have hlater := ih hlength (Char.ofNat number :: latest)
    rw [List.reverse_cons, List.append_assoc] at hlater
    have hescape := yields_escape_u (yields_numberedEscape hdigits hwhole (later ++ '"' :: rest))
    have hstring := yields_stringFrom_backslash hlater hescape
    rwa [← List.append_assoc] at hstring
  | @pair digits more later text first second hdigits hfirst hmore hsecond _ ih =>
    obtain ⟨fuel, rfl⟩ := Nat.exists_eq_add_one_of_ne_zero (Nat.ne_zero_of_lt hfuel)
    have hlength : later.length < fuel := by
      simp only [List.length_cons, List.length_append] at hfuel
      omega
    have hlater := ih hlength
      (Char.ofNat (0x10000 + (first - 0xD800) * 0x400 + (second - 0xDC00)) :: latest)
    rw [List.reverse_cons, List.append_assoc] at hlater
    have hescape := yields_escape_u (yields_numberedEscape_pair hdigits hfirst hmore hsecond
      (later ++ '"' :: rest))
    have hstring := yields_stringFrom_backslash hlater hescape
    simpa using hstring

theorem Spells.yields_string (hspells : Spells characters text) (rest : List Char) :
    Yields string (characters ++ '"' :: rest) (String.ofList text) rest := by
  refine yields_get fun offset ↦ hspells.yields_stringFrom ?_ [] rest
  rw [List.length_append]
  omega

/-- An escape by number is read up to where the string goes on, and then it stands for a character
before what comes there. -/
theorem Body.meets_numberedEscape {digits : List Char} {number : Nat}
    (hdigits : hexValue? digits = some number) (hbody : Body characters) (rest : List Char) :
    Meets numberedEscape (digits ++ (characters ++ '"' :: rest)) fun _ left ↦
      ∃ later, Body later ∧ left = later ++ '"' :: rest ∧ ∀ text, Spells later text →
        ∃ whole, Spells ('\\' :: 'u' :: (digits ++ characters)) whole := by
  refine (yields_hexEscape (length_of_hexValue? hdigits) hdigits _).bind_meets ?_
  split
  · exact meets_failHere _ _
  rename_i hsecondHalf
  split
  · -- the other half has to follow, so the string goes on with another escape by number
    rename_i hfirst
    refine (meets_demandInString _ _).bind fun _ afterBackslash hbackslash ↦ ?_
    refine (meets_demandInString _ _).bind fun _ afterU hu ↦ ?_
    rw [hu] at hbackslash
    cases hbody with
    | nil => cases hbackslash
    | plain _ hother => exact absurd (List.cons.inj hbackslash).1 hother
    | letter hletter =>
      exact absurd (List.cons.inj (List.cons.inj hbackslash).2).1 (ne_u_of_escapeLetter? hletter)
    | @number more later second hmore hlater =>
      have hafter : afterU = more ++ (later ++ '"' :: rest) := by
        rw [← List.append_assoc]
        exact (List.cons.inj (List.cons.inj hbackslash).2).2.symm
      rw [hafter]
      refine (yields_hexEscape (length_of_hexValue? hmore) hmore _).bind_meets ?_
      split
      · rename_i hsecond
        exact meets_pure ⟨later, hlater, rfl, fun _ htext ↦
          ⟨_, .pair hdigits hfirst hmore hsecond htext⟩⟩
      · exact meets_failHere _ _
  · rename_i hfirstHalf
    have hwhole : number < 0xD800 ∨ 0xDFFF < number := by omega
    exact meets_pure ⟨characters, hbody, rfl, fun _ htext ↦ ⟨_, .number hdigits hwhole htext⟩⟩

/-- What is read of a string goes up to its closing quote, and only what stands for a text is
read. -/
theorem Body.meets_stringFrom (hbody : Body characters) (fuel : Nat) (latest rest : List Char) :
    Meets (stringFrom fuel latest) (characters ++ '"' :: rest) fun _ left ↦
      left = rest ∧ ∃ text, Spells characters text := by
  induction fuel generalizing characters latest with
  | zero => exact meets_failHere _ _
  | succ fuel ih =>
    rw [stringFrom]
    cases hbody with
    | nil => exact (yields_next? _ _).bind_meets (meets_pure ⟨rfl, [], .nil⟩)
    | @plain character later hquote hbackslash hcontrol hlater =>
      refine (yields_next? _ _).bind_meets ?_
      split
      · rename_i hnone
        cases hnone
      · rename_i hsame
        exact absurd (Option.some.inj hsame) hquote
      · rename_i hsame
        exact absurd (Option.some.inj hsame) hbackslash
      · rename_i hother
        cases hother
        rw [if_neg hcontrol]
        refine (ih hlater _).imp ?_
        rintro _ left ⟨hleft, text, htext⟩
        exact ⟨hleft, _, .plain hquote hbackslash hcontrol htext⟩
    | @letter letter later hletter hlater =>
      obtain ⟨character, hcharacter⟩ := Option.isSome_iff_exists.mp hletter
      refine (yields_next? _ _).bind_meets ?_
      refine (yields_escape_letter (ne_u_of_escapeLetter? hletter) hcharacter _).bind_meets ?_
      refine (ih hlater _).imp ?_
      rintro _ left ⟨hleft, text, htext⟩
      exact ⟨hleft, _, .letter hcharacter htext⟩
    | @number digits later number hdigits hlater =>
      have hnumbered := hlater.meets_numberedEscape hdigits rest
      rw [← List.append_assoc] at hnumbered
      have hescape : Meets escape ('u' :: (digits ++ later ++ '"' :: rest)) _ :=
        (yields_peek? _).bind_meets ((yields_pass 1 _).bind_meets hnumbered)
      refine (yields_next? _ _).bind_meets (hescape.bind fun character left hleft ↦ ?_)
      obtain ⟨more, hmore, rfl, hwhole⟩ := hleft
      refine (ih hmore _).imp ?_
      rintro _ left ⟨hleft, text, htext⟩
      exact ⟨hleft, hwhole text htext⟩

theorem Body.meets_string (hbody : Body characters) (rest : List Char) :
    Meets string (characters ++ '"' :: rest) fun _ left ↦
      left = rest ∧ ∃ text, Spells characters text :=
  fun offset ↦ hbody.meets_stringFrom _ [] rest offset

theorem yields_skipEscape_letter {letter : Char} (hletter : (escapeLetter? letter).isSome = true)
    (rest : List Char) : Yields skipEscape (letter :: rest) () rest := by
  refine (yields_peek? _).bind ?_
  rw [List.head?_cons]
  split
  · rename_i hnone
    cases hnone
  · rename_i hsame
    exact absurd (Option.some.inj hsame) (ne_u_of_escapeLetter? hletter)
  · rename_i hother
    cases hother
    rw [if_pos hletter]
    exact yields_pass 1 _

/-- A string is passed over up to its closing quote. -/
theorem Body.yields_skipStringFrom (hbody : Body characters) {fuel : Nat}
    (hfuel : characters.length < fuel) (rest : List Char) :
    Yields (skipStringFrom fuel) (characters ++ '"' :: rest) () rest := by
  induction hbody generalizing fuel with
  | nil =>
    obtain ⟨fuel, rfl⟩ := Nat.exists_eq_add_one_of_ne_zero (Nat.ne_zero_of_lt hfuel)
    rw [skipStringFrom]
    exact (yields_peek? _).bind (yields_pass 1 _)
  | @plain character later hquote hbackslash hcontrol _ ih =>
    obtain ⟨fuel, rfl⟩ := Nat.exists_eq_add_one_of_ne_zero (Nat.ne_zero_of_lt hfuel)
    rw [skipStringFrom]
    refine (yields_peek? _).bind ?_
    split
    · rename_i hnone
      cases hnone
    · rename_i hsame
      exact absurd (Option.some.inj hsame) hquote
    · rename_i hsame
      exact absurd (Option.some.inj hsame) hbackslash
    · rename_i hother
      cases hother
      rw [if_neg hcontrol]
      exact (yields_pass 1 _).bind (ih (Nat.lt_of_succ_lt_succ hfuel))
  | @letter letter later hletter _ ih =>
    obtain ⟨fuel, rfl⟩ := Nat.exists_eq_add_one_of_ne_zero (Nat.ne_zero_of_lt hfuel)
    have hlength : later.length < fuel := by
      simp only [List.length_cons] at hfuel
      omega
    rw [skipStringFrom]
    refine (yields_peek? _).bind ((yields_pass 1 _).bind ?_)
    exact (yields_skipEscape_letter hletter _).bind (ih hlength)
  | @number digits later number hdigits _ ih =>
    obtain ⟨fuel, rfl⟩ := Nat.exists_eq_add_one_of_ne_zero (Nat.ne_zero_of_lt hfuel)
    have hlength : later.length < fuel := by
      simp only [List.length_cons, List.length_append] at hfuel
      omega
    have hhex := yields_hexEscape (length_of_hexValue? hdigits) hdigits (later ++ '"' :: rest)
    rw [← List.append_assoc] at hhex
    have hskip : Yields skipEscape ('u' :: (digits ++ later ++ '"' :: rest)) () _ :=
      (yields_peek? _).bind ((yields_pass 1 _).bind (hhex.bind (yields_pure _ _)))
    rw [skipStringFrom]
    exact (yields_peek? _).bind ((yields_pass 1 _).bind (hskip.bind (ih hlength)))

theorem Body.yields_skipString (hbody : Body characters) (rest : List Char) :
    Yields skipString (characters ++ '"' :: rest) () rest := by
  refine yields_get fun offset ↦ hbody.yields_skipStringFrom ?_ rest
  rw [List.length_append]
  omega

end Strings

/-! ### Numbers -/

/-- One digit or more. -/
def Digits (characters : List Char) : Prop :=
  characters ≠ [] ∧ ∀ character ∈ characters, isDigit character = true

instance (characters : List Char) : Decidable (Digits characters) :=
  @instDecidableAnd _ _ inferInstance (List.decidableBAll (isDigit · = true) characters)

/-- The digits before the point: a zero stands alone. -/
inductive Whole : List Char → Prop where
  | zero : Whole ['0']
  | digits {characters : List Char} (hdigits : Digits characters)
      (hfirst : characters.head? ≠ some '0') : Whole characters

/-- What may follow the digits before the point. -/
inductive Fraction : List Char → Prop where
  | none : Fraction []
  | point {digits : List Char} (hdigits : Digits digits) : Fraction ('.' :: digits)

/-- What may follow the fraction. -/
inductive Exponent : List Char → Prop where
  | none : Exponent []
  | mark {mark : Char} {sign digits : List Char} (hmark : mark = 'e' ∨ mark = 'E')
      (hsign : sign = [] ∨ sign = ['+'] ∨ sign = ['-']) (hdigits : Digits digits) :
      Exponent (mark :: (sign ++ digits))

/-- A number. -/
inductive Number : List Char → Prop where
  | mk {sign whole fraction exponent : List Char} (hsign : sign = [] ∨ sign = ['-'])
      (hwhole : Whole whole) (hfraction : Fraction fraction) (hexponent : Exponent exponent) :
      Number (sign ++ (whole ++ (fraction ++ exponent)))

section Numbers

variable {α : Type} {digits rest : List Char}

theorem Closed.not_digit (hclosed : Closed rest) :
    ∀ character ∈ rest.head?, isDigit character = false :=
  fun character hcharacter ↦ (hclosed character hcharacter).1

theorem Digits.exists_cons (hdigits : Digits digits) :
    ∃ first more, digits = first :: more ∧ isDigit first = true := by
  obtain ⟨first, more, rfl⟩ := List.exists_cons_of_ne_nil hdigits.1
  exact ⟨first, more, rfl, hdigits.2 first List.mem_cons_self⟩

/-- The sign of an exponent is passed. -/
theorem sign_eq (next : Option Char → Unit → Scan α) {sign : List Char}
    (hsign : sign = [] ∨ sign = ['+'] ∨ sign = ['-']) (hdigits : Digits digits) (offset : Nat) :
    ∃ found after, (peek? >>= fun found ↦
      if (found == some '+' || found == some '-') = true then pass 1 >>= next found
      else next found ()) ⟨sign ++ (digits ++ rest), offset⟩ =
        next found () ⟨digits ++ rest, after⟩ := by
  rcases hsign with rfl | rfl | rfl
  · obtain ⟨first, more, rfl, hfirst⟩ := hdigits.exists_cons
    have hplus : first ≠ '+' := ne_of_isDigit hfirst rfl
    have hminus : first ≠ '-' := ne_of_isDigit hfirst rfl
    have hno : ((some first : Option Char) == some '+' || some first == some '-') = false := by
      simp [hplus, hminus]
    refine ⟨some first, offset, ?_⟩
    show (if ((some first : Option Char) == some '+' || some first == some '-') = true then _
      else next (some first) ()) _ = _
    rw [hno, if_neg Bool.false_ne_true]
    rfl
  · exact ⟨some '+', _, rfl⟩
  · exact ⟨some '-', _, rfl⟩

theorem yields_sign {next : Option Char → Unit → Scan α} {sign left : List Char} {value : α}
    (hsign : sign = [] ∨ sign = ['+'] ∨ sign = ['-']) (hdigits : Digits digits)
    (hnext : ∀ found, Yields (next found ()) (digits ++ rest) value left) :
    Yields (peek? >>= fun found ↦
      if (found == some '+' || found == some '-') = true then pass 1 >>= next found
      else next found ()) (sign ++ (digits ++ rest)) value left := by
  intro offset
  obtain ⟨found, after, heq⟩ := sign_eq next hsign hdigits offset
  rw [heq]
  exact hnext found after

theorem meets_sign {next : Option Char → Unit → Scan α} {sign : List Char}
    {result : α → List Char → Prop} (hsign : sign = [] ∨ sign = ['+'] ∨ sign = ['-'])
    (hdigits : Digits digits) (hnext : ∀ found, Meets (next found ()) (digits ++ rest) result) :
    Meets (peek? >>= fun found ↦
      if (found == some '+' || found == some '-') = true then pass 1 >>= next found
      else next found ()) (sign ++ (digits ++ rest)) result := by
  intro offset value cursor hok
  obtain ⟨found, after, heq⟩ := sign_eq next hsign hdigits offset
  rw [heq] at hok
  exact hnext found after value cursor hok

/-- An exponent is passed over. -/
theorem yields_skipExponent {mark : Char} {sign : List Char}
    (hsign : sign = [] ∨ sign = ['+'] ∨ sign = ['-']) (hdigits : Digits digits)
    (hclosed : Closed rest) :
    Yields skipExponent (mark :: (sign ++ (digits ++ rest))) () rest := by
  refine (yields_pass 1 _).bind (yields_sign hsign hdigits fun found ↦ ?_)
  obtain ⟨first, more, rfl, hfirst⟩ := hdigits.exists_cons
  refine (yields_peek? _).bind ?_
  show Yields (if isDigit first = true then _ else _) _ _ _
  rw [if_pos hfirst]
  exact (yields_passWhile hdigits.2 hclosed.not_digit).bind (yields_pure _ _)

/-- The digits of an exponent are read to their end, or to where they are too many. -/
theorem meets_exponentFrom (hdigits : ∀ character ∈ digits, isDigit character = true)
    (hclosed : Closed rest) (power : Nat) {fuel : Nat} (hfuel : digits.length ≤ fuel) :
    Meets (exponentFrom fuel power) (digits ++ rest) fun found left ↦
      ∃ later, (∀ character ∈ later, isDigit character = true) ∧ left = later ++ rest ∧
        (found.isSome = true → later = []) := by
  induction digits generalizing power fuel with
  | nil =>
    have hend : ∀ more, Meets (pure (some more)) rest fun found left ↦
        ∃ later, (∀ character ∈ later, isDigit character = true) ∧ left = later ++ rest ∧
          ((found : Option Nat).isSome = true → later = []) :=
      fun more ↦ meets_pure ⟨[], List.forall_mem_nil _, rfl, fun _ ↦ rfl⟩
    cases fuel with
    | zero => exact hend power
    | succ fuel =>
      refine (yields_peek? _).bind_meets ?_
      rw [List.nil_append]
      split
      · rename_i character hcharacter
        rw [hclosed.not_digit character hcharacter, if_neg Bool.false_ne_true]
        exact hend power
      · exact hend power
  | cons digit later ih =>
    obtain ⟨hdigit, hlater⟩ := List.forall_mem_cons.mp hdigits
    cases fuel with
    | zero => cases hfuel
    | succ fuel =>
      refine (yields_peek? _).bind_meets ?_
      show Meets (if isDigit digit = true then _ else _) _ _
      rw [if_pos hdigit]
      refine (yields_pass 1 _).bind_meets ?_
      show Meets (if largestPower < power * 10 + (digit.toNat - 48) then _ else _) (later ++ rest) _
      split
      · exact meets_pure ⟨later, hlater, rfl, fun hnone ↦ nomatch hnone⟩
      · exact ih hlater _ (Nat.le_of_succ_le_succ hfuel)

theorem meets_finish (negative : Bool) (significand : Nat) (power : Int) (rest : List Char) :
    Meets (finish negative significand power) rest fun _ left ↦ left = rest := by
  unfold finish
  split
  · exact meets_pure rfl
  · exact meets_failHere _ _

theorem meets_exponent {mark : Char} {sign : List Char} (negative : Bool) (significand : Nat)
    (power : Int) (hsign : sign = [] ∨ sign = ['+'] ∨ sign = ['-']) (hdigits : Digits digits)
    (hclosed : Closed rest) :
    Meets (exponent negative significand power) (mark :: (sign ++ (digits ++ rest)))
      fun _ left ↦ left = rest := by
  refine (yields_pass 1 _).bind_meets (meets_sign hsign hdigits fun found ↦ ?_)
  obtain ⟨first, more, rfl, hfirst⟩ := hdigits.exists_cons
  refine (yields_peek? _).bind_meets ?_
  show Meets (if isDigit first = true then _ else _) _ _
  rw [if_pos hfirst]
  refine (yields_pass 1 _).bind_meets (meets_get fun offset ↦ ?_)
  have hmore := (List.forall_mem_cons.mp hdigits.2).2
  refine (meets_exponentFrom hmore hclosed _ (by simp)).bind fun count left hleft ↦ ?_
  obtain ⟨later, hlater, rfl, hend⟩ := hleft
  split
  · rw [hend rfl]
    exact meets_finish _ _ _ _
  · split
    · exact meets_failHere _ _
    · exact (yields_passWhile hlater hclosed.not_digit).bind_meets (meets_pure rfl)

theorem Closed.no_mark (hclosed : Closed rest) :
    (rest.head? == some 'e' || rest.head? == some 'E') = false := by
  cases rest with
  | nil => rfl
  | cons first more =>
    obtain ⟨_, _, hsmall, hlarge⟩ := hclosed first rfl
    simp [hsmall, hlarge]

theorem mark_eq {mark : Char} (hmark : mark = 'e' ∨ mark = 'E') :
    ((some mark : Option Char) == some 'e' || some mark == some 'E') = true := by
  rcases hmark with rfl | rfl <;> rfl

/-- What may follow the digits before the point, passed over. -/
def skipParts : Scan Unit := do
  let following ← peek?
  if following == some '.' then
    pass 1
    let digits ← passWhile isDigit
    if digits.isEmpty then failAhead .invalidNumber
    let later ← peek?
    if later == some 'e' || later == some 'E' then skipExponent
  else if following == some 'e' || following == some 'E' then skipExponent

section Parts

variable {whole fraction exponent : List Char} (hwhole : Whole whole)
  (hfraction : Fraction fraction) (hexponent : Exponent exponent) (hclosed : Closed rest)

include hexponent hclosed

/-- An exponent, if there is one, is passed over. -/
theorem yields_optional_exponent :
    Yields (if ((exponent ++ rest).head? == some 'e' || (exponent ++ rest).head? == some 'E') = true
      then skipExponent else pure ()) (exponent ++ rest) () rest := by
  cases hexponent with
  | none =>
    rw [List.nil_append, hclosed.no_mark, if_neg Bool.false_ne_true]
    exact yields_pure _ _
  | mark hmark hsign hdigits =>
    rw [List.cons_append, List.head?_cons, if_pos (mark_eq hmark), List.append_assoc]
    exact yields_skipExponent hsign hdigits hclosed

/-- An exponent, if there is one, is read. -/
theorem meets_optional_exponent (negative : Bool) (significand : Nat) (power : Int) :
    Meets (if ((exponent ++ rest).head? == some 'e' || (exponent ++ rest).head? == some 'E') = true
      then Json.exponent negative significand power else finish negative significand power)
      (exponent ++ rest) fun _ left ↦ left = rest := by
  cases hexponent with
  | none =>
    rw [List.nil_append, hclosed.no_mark, if_neg Bool.false_ne_true]
    exact meets_finish _ _ _ _
  | mark hmark hsign hdigits =>
    rw [List.cons_append, List.head?_cons, if_pos (mark_eq hmark), List.append_assoc]
    exact meets_exponent _ _ _ hsign hdigits hclosed

theorem not_digit_exponent :
    ∀ character ∈ (exponent ++ rest).head?, isDigit character = false := by
  cases hexponent with
  | none => exact hclosed.not_digit
  | mark hmark =>
    intro character hcharacter
    cases hcharacter
    rcases hmark with rfl | rfl <;> rfl

include hfraction

theorem not_digit_fraction :
    ∀ character ∈ (fraction ++ (exponent ++ rest)).head?, isDigit character = false := by
  cases hfraction with
  | none =>
    rw [List.nil_append]
    exact not_digit_exponent hexponent hclosed
  | point =>
    intro character hcharacter
    cases hcharacter
    rfl

/-- What follows the digits before the point is read. -/
theorem meets_afterDigits (negative : Bool) (significand surplus : Nat) :
    Meets (afterDigits negative significand surplus) (fraction ++ (exponent ++ rest))
      fun _ left ↦ left = rest := by
  refine (yields_peek? _).bind_meets ?_
  cases hfraction with
  | none =>
    rw [List.nil_append]
    cases hexponent with
    | none =>
      rw [List.nil_append]
      split
      · rename_i hpoint
        exact absurd rfl (hclosed _ hpoint).2.1
      · rename_i hsmall
        exact absurd rfl (hclosed _ hsmall).2.2.1
      · rename_i hlarge
        exact absurd rfl (hclosed _ hlarge).2.2.2
      · split
        · exact meets_finish _ _ _ _
        · split
          · split <;> exact meets_pure rfl
          · exact meets_pure rfl
    | mark hmark hsign hdigits =>
      rw [List.cons_append, List.append_assoc]
      rcases hmark with rfl | rfl
      · exact meets_exponent _ _ _ hsign hdigits hclosed
      · exact meets_exponent _ _ _ hsign hdigits hclosed
  | @point digits hdigits =>
    refine (yields_pass 1 _).bind_meets ?_
    have hpassed := yields_passWhile hdigits.2 (not_digit_exponent hexponent hclosed)
    refine hpassed.bind_meets ?_
    rw [if_neg (by simp [hdigits.1])]
    exact (yields_peek? _).bind_meets (meets_optional_exponent hexponent hclosed _ _ _)

theorem yields_skipParts : Yields skipParts (fraction ++ (exponent ++ rest)) () rest := by
  refine (yields_peek? _).bind ?_
  cases hfraction with
  | none =>
    have hpoint : ¬ ((exponent ++ rest).head? == some '.') = true := by
      intro hsame
      have hhead := beq_iff_eq.mp hsame
      cases hexponent with
      | none => exact (hclosed _ hhead).2.1 rfl
      | mark hmark =>
        cases hhead
        rcases hmark with hmark | hmark <;> cases hmark
    rw [List.nil_append, if_neg hpoint]
    exact yields_optional_exponent hexponent hclosed
  | @point digits hdigits =>
    have hpassed := yields_passWhile hdigits.2 (not_digit_exponent hexponent hclosed)
    refine (yields_pass 1 _).bind (hpassed.bind ?_)
    rw [if_neg (by simp [hdigits.1])]
    exact (yields_peek? _).bind (yields_optional_exponent hexponent hclosed)

include hwhole

/-- A number is read, after its sign. -/
theorem meets_number (negative : Bool) :
    Meets (number negative) (whole ++ (fraction ++ (exponent ++ rest)))
      fun _ left ↦ left = rest := by
  have hstop := not_digit_fraction hfraction hexponent hclosed
  refine (yields_peek? _).bind_meets ?_
  cases hwhole with
  | zero =>
    refine (yields_pass 1 _).bind_meets ((yields_peek? _).bind_meets ?_)
    show Meets _ (fraction ++ (exponent ++ rest)) _
    split
    · rename_i following hfollowing
      rw [hstop following hfollowing, if_neg Bool.false_ne_true]
      exact meets_afterDigits hfraction hexponent hclosed _ _ _
    · exact meets_afterDigits hfraction hexponent hclosed _ _ _
  | digits hdigits hzero =>
    rw [List.head?_append_of_ne_nil _ hdigits.1]
    split
    · rename_i hnone
      exact absurd (List.head?_eq_none_iff.mp hnone) hdigits.1
    · rename_i hfirst
      exact absurd hfirst hzero
    · rename_i digit _ hfirst
      rw [if_pos (hdigits.2 digit (List.mem_of_head? hfirst))]
      refine (yields_passWhile hdigits.2 hstop).bind_meets ?_
      exact meets_afterDigits hfraction hexponent hclosed _ _ _

/-- A number is passed over, after its sign. -/
theorem yields_skipNumber :
    Yields skipNumber (whole ++ (fraction ++ (exponent ++ rest))) () rest := by
  have hstop := not_digit_fraction hfraction hexponent hclosed
  refine (yields_peek? _).bind ?_
  cases hwhole with
  | zero =>
    have hnone : ((fraction ++ (exponent ++ rest)).head?.map isDigit).getD false = false := by
      cases hhead : (fraction ++ (exponent ++ rest)).head? with
      | none => rfl
      | some following => exact hstop following hhead
    refine (yields_pass 1 _).bind ((yields_peek? _).bind ?_)
    show Yields (if ((fraction ++ (exponent ++ rest)).head?.map isDigit).getD false = true then _
      else _) (fraction ++ (exponent ++ rest)) _ _
    rw [hnone, if_neg Bool.false_ne_true]
    exact yields_skipParts hfraction hexponent hclosed
  | digits hdigits hzero =>
    rw [List.head?_append_of_ne_nil _ hdigits.1]
    split
    · rename_i hfirst
      exact absurd hfirst hzero
    · rename_i digit _ hfirst
      rw [if_pos (hdigits.2 digit (List.mem_of_head? hfirst))]
      refine (yields_passWhile hdigits.2 hstop).bind ?_
      exact yields_skipParts hfraction hexponent hclosed
    · rename_i hnone
      exact absurd (List.head?_eq_none_iff.mp hnone) hdigits.1

end Parts

end Numbers

/-! ### Values -/

/-- An item of a list, with the blanks around it. -/
structure Item where
  before : List Char
  content : List Char
  after : List Char

/-- A member of an object: its name as it is written, the blanks around the name, and its value. -/
structure Member where
  before : List Char
  name : List Char
  gap : List Char
  item : Item

/-- The characters of an item. -/
def Item.characters (item : Item) : List Char :=
  item.before ++ (item.content ++ item.after)

/-- Whether there are only blanks around an item. -/
def Item.Spaced (item : Item) : Prop :=
  Blanks item.before ∧ Blanks item.after

instance (item : Item) : Decidable item.Spaced :=
  inferInstanceAs (Decidable (Blanks item.before ∧ Blanks item.after))

/-- The characters of a member. -/
def Member.characters (entry : Member) : List Char :=
  entry.before ++ '"' :: (entry.name ++ '"' :: (entry.gap ++ ':' :: entry.item.characters))

/-- Whether there are only blanks around the parts of a member. -/
def Member.Spaced (entry : Member) : Prop :=
  Blanks entry.before ∧ Blanks entry.gap ∧ entry.item.Spaced

instance (entry : Member) : Decidable entry.Spaced :=
  inferInstanceAs (Decidable (Blanks entry.before ∧ Blanks entry.gap ∧ entry.item.Spaced))

/-- Items or members with commas between them, and then the rest. Unless they come first, there is a
comma in front of them as well. -/
def listed : Bool → List (List Char) → List Char → List Char
  | _, [], rest => rest
  | true, piece :: pieces, rest => piece ++ listed false pieces rest
  | false, piece :: pieces, rest => ',' :: (piece ++ listed false pieces rest)

/-- The characters of a value. -/
inductive Value : List Char → Prop where
  | null : Value ['n', 'u', 'l', 'l']
  | yes : Value ['t', 'r', 'u', 'e']
  | no : Value ['f', 'a', 'l', 's', 'e']
  | number {characters : List Char} (hnumber : Number characters) : Value characters
  | string {characters : List Char} (hbody : Body characters) :
      Value ('"' :: (characters ++ ['"']))
  | list {gap : List Char} {items : List Item} (hgap : Blanks gap)
      (hspaced : ∀ item ∈ items, item.Spaced) (hitems : ∀ item ∈ items, Value item.content) :
      Value ('[' :: listed true (items.map Item.characters) (gap ++ [']']))
  | object {gap : List Char} {entries : List Member} (hgap : Blanks gap)
      (hspaced : ∀ entry ∈ entries, entry.Spaced) (hnames : ∀ entry ∈ entries, Body entry.name)
      (hvalues : ∀ entry ∈ entries, Value entry.item.content) :
      Value ('{' :: listed true (entries.map Member.characters) (gap ++ ['}']))

section Values

variable {blanks rest : List Char}

theorem listed_append (first : Bool) (pieces : List (List Char)) (rest more : List Char) :
    listed first pieces rest ++ more = listed first pieces (rest ++ more) := by
  induction pieces generalizing first with
  | nil => rfl
  | cons piece pieces ih =>
    cases first with
    | true => rw [listed, listed, List.append_assoc, ih]
    | false => rw [listed, listed, List.cons_append, List.append_assoc, ih]

theorem length_listed (first : Bool) (pieces : List (List Char)) (rest : List Char) :
    (listed first pieces rest).length = (listed first pieces []).length + rest.length := by
  rw [← List.length_append, listed_append, List.nil_append]

/-- Fuel for a list or an object is enough for its first part and for what follows it. -/
theorem fuel_of_listed {fuel : Nat} {first : Bool} {piece : List Char} {pieces : List (List Char)}
    {close : Char} (hfuel : (listed first (piece :: pieces) [close]).length ≤ fuel + 1)
    (hpiece : 0 < piece.length) :
    piece.length ≤ fuel ∧ (listed false pieces [close]).length ≤ fuel := by
  have hclose := length_listed false pieces [close]
  rw [List.length_singleton] at hclose
  cases first with
  | true =>
    rw [listed, List.length_append] at hfuel
    omega
  | false =>
    rw [listed, List.length_cons, List.length_append] at hfuel
    omega

theorem Blanks.closed_append (hblanks : Blanks blanks) (hclosed : Closed rest) :
    Closed (blanks ++ rest) := by
  cases blanks with
  | nil => exact hclosed
  | cons blank more =>
    have hblank := hblanks blank List.mem_cons_self
    simp only [isBlank, Bool.or_eq_true, beq_iff_eq] at hblank
    rcases hblank with ((rfl | rfl) | rfl) | rfl <;> exact closed_of_cons (by decide) _

theorem Blanks.closed_list (hblanks : Blanks blanks) (rest : List Char) :
    Closed (blanks ++ ']' :: rest) :=
  hblanks.closed_append (closed_of_cons (by decide) rest)

theorem Blanks.closed_object (hblanks : Blanks blanks) (rest : List Char) :
    Closed (blanks ++ '}' :: rest) :=
  hblanks.closed_append (closed_of_cons (by decide) rest)

theorem closed_listed (pieces : List (List Char)) (hclosed : Closed rest) :
    Closed (listed false pieces rest) := by
  cases pieces with
  | nil => exact hclosed
  | cons piece more => exact closed_of_cons (by decide) _

theorem Whole.exists_cons {whole : List Char} (hwhole : Whole whole) :
    ∃ first later, whole = first :: later ∧ isDigit first = true := by
  cases hwhole with
  | zero => exact ⟨'0', [], rfl, rfl⟩
  | digits hdigits => exact hdigits.exists_cons

theorem Number.exists_first {characters : List Char} (hnumber : Number characters) :
    ∃ first later, characters = first :: later ∧ (first = '-' ∨ isDigit first = true) := by
  obtain ⟨hsign, hwhole, _, _⟩ := hnumber
  rcases hsign with rfl | rfl
  · obtain ⟨first, later, rfl, hfirst⟩ := hwhole.exists_cons
    exact ⟨first, _, rfl, Or.inr hfirst⟩
  · exact ⟨'-', _, rfl, Or.inl rfl⟩

theorem Value.starts {content : List Char} (hvalue : Value content) : Starts content := by
  cases hvalue with
  | null => exact ⟨_, _, rfl, rfl, by decide⟩
  | yes => exact ⟨_, _, rfl, rfl, by decide⟩
  | no => exact ⟨_, _, rfl, rfl, by decide⟩
  | string => exact ⟨_, _, rfl, rfl, by decide⟩
  | list => exact ⟨_, _, rfl, rfl, by decide⟩
  | object => exact ⟨_, _, rfl, rfl, by decide⟩
  | number hnumber =>
    obtain ⟨first, later, rfl, rfl | hdigit⟩ := hnumber.exists_first
    · exact ⟨_, _, rfl, rfl, by decide⟩
    · exact ⟨_, _, rfl, isBlank_of_isDigit hdigit, ne_of_isDigit hdigit rfl⟩

theorem yields_word (letters rest : List Char) :
    Yields (word letters) (letters ++ rest) () rest := by
  induction letters with
  | nil => exact yields_pure _ _
  | cons letter more ih =>
    rw [word]
    refine (yields_peek? _).bind ?_
    rw [List.cons_append, List.head?_cons]
    show Yields (if letter = letter then _ else _) _ _ _
    rw [if_pos rfl]
    exact (yields_pass 1 _).bind ih

theorem yields_skipScalar_of_scalar? {first : Char} {later : List Char} {found : Json}
    (hminus : first ≠ '-') (hquote : first ≠ '"') (hdigit : isDigit first = false)
    (hscalar : Yields scalar? (first :: later) (some found) rest) :
    Yields skipScalar (first :: later) true rest := by
  refine (yields_peek? _).bind ?_
  rw [List.head?_cons]
  split
  · rename_i hsame
    exact absurd (Option.some.inj hsame) hminus
  · rename_i hsame
    exact absurd (Option.some.inj hsame) hquote
  · rename_i hother
    cases hother
    rw [hdigit, if_neg Bool.false_ne_true]
    exact hscalar.bind (yields_pure _ _)
  · rename_i hnone
    cases hnone

theorem Number.yields_skipScalar {characters : List Char} (hnumber : Number characters)
    (hclosed : Closed rest) : Yields skipScalar (characters ++ rest) true rest := by
  obtain ⟨hsign, hwhole, hfraction, hexponent⟩ := hnumber
  have hskip := yields_skipNumber hwhole hfraction hexponent hclosed
  obtain ⟨first, later, rfl, hfirst⟩ := hwhole.exists_cons
  simp only [List.append_assoc, List.cons_append] at hskip ⊢
  rcases hsign with rfl | rfl
  · refine (yields_peek? _).bind ?_
    rw [List.nil_append, List.head?_cons]
    split
    · rename_i hsame
      exact absurd (Option.some.inj hsame) (ne_of_isDigit hfirst rfl)
    · rename_i hsame
      exact absurd (Option.some.inj hsame) (ne_of_isDigit hfirst rfl)
    · rename_i hother
      cases hother
      rw [if_pos hfirst]
      exact hskip.bind (yields_pure _ _)
    · rename_i hnone
      cases hnone
  · exact (yields_peek? _).bind ((yields_pass 1 _).bind (hskip.bind (yields_pure _ _)))

theorem Number.meets_scalar? {characters : List Char} (hnumber : Number characters)
    (hclosed : Closed rest) : Meets scalar? (characters ++ rest) fun _ left ↦ left = rest := by
  obtain ⟨hsign, hwhole, hfraction, hexponent⟩ := hnumber
  have hread := meets_number hwhole hfraction hexponent hclosed
  obtain ⟨first, later, rfl, hfirst⟩ := hwhole.exists_cons
  simp only [List.append_assoc, List.cons_append] at hread ⊢
  rcases hsign with rfl | rfl
  · have hno {other : Char} (hother : isDigit other = false) :
        some first ≠ some other := fun hsame ↦ ne_of_isDigit hfirst hother (Option.some.inj hsame)
    refine (yields_peek? _).bind_meets ?_
    rw [List.nil_append, List.head?_cons]
    split
    · exact absurd ‹_› (hno rfl)
    · exact absurd ‹_› (hno rfl)
    · exact absurd ‹_› (hno rfl)
    · exact absurd ‹_› (hno rfl)
    · exact absurd ‹_› (hno rfl)
    · rename_i hother
      cases hother
      rw [if_pos hfirst]
      exact (hread false).bind fun _ _ hleft ↦ meets_pure hleft
    · rename_i hnone
      cases hnone
  · refine (yields_peek? _).bind_meets ((yields_pass 1 _).bind_meets ?_)
    exact (hread true).bind fun _ _ hleft ↦ meets_pure hleft

theorem yields_scalar?_null (rest : List Char) :
    Yields scalar? ('n' :: 'u' :: 'l' :: 'l' :: rest) (some .null) rest :=
  (yields_peek? _).bind ((yields_pass 1 _).bind
    ((yields_word ['u', 'l', 'l'] rest).bind (yields_pure _ _)))

theorem yields_scalar?_true (rest : List Char) :
    Yields scalar? ('t' :: 'r' :: 'u' :: 'e' :: rest) (some (.boolean true)) rest :=
  (yields_peek? _).bind ((yields_pass 1 _).bind
    ((yields_word ['r', 'u', 'e'] rest).bind (yields_pure _ _)))

theorem yields_scalar?_false (rest : List Char) :
    Yields scalar? ('f' :: 'a' :: 'l' :: 's' :: 'e' :: rest) (some (.boolean false)) rest :=
  (yields_peek? _).bind ((yields_pass 1 _).bind
    ((yields_word ['a', 'l', 's', 'e'] rest).bind (yields_pure _ _)))

/-! ### Passing over values -/

/-- Characters that are passed over as a value, all of them and nothing else. -/
def Passed (content : List Char) : Prop :=
  ∀ fuel rest, content.length ≤ fuel → Closed rest →
    Yields (skipValue fuel) (content ++ rest) () rest

theorem passed_of_skipScalar {first : Char} {later : List Char} (hsolid : isBlank first = false)
    (hlist : first ≠ '[') (hobject : first ≠ '{')
    (hscalar : ∀ rest, Closed rest → Yields skipScalar (first :: (later ++ rest)) true rest) :
    Passed (first :: later) := by
  intro fuel rest hfuel hclosed
  cases fuel with
  | zero => cases hfuel
  | succ fuel =>
    rw [skipValue]
    refine (yields_peekSolid?_cons (List.forall_mem_nil _) (later ++ rest) hsolid).bind ?_
    split
    · rename_i hnone
      cases hnone
    · rename_i hsame
      exact absurd (Option.some.inj hsame) hlist
    · rename_i hsame
      exact absurd (Option.some.inj hsame) hobject
    · exact (hscalar rest hclosed).bind (yields_pure _ _)

theorem Passed.yields {content : List Char} (hpassed : Passed content) (hstarts : Starts content)
    {fuel : Nat} (hfuel : content.length ≤ fuel) (hblanks : Blanks blanks) (hclosed : Closed rest) :
    Yields (skipValue fuel) (blanks ++ (content ++ rest)) () rest := by
  have hyields := hpassed fuel rest hfuel hclosed
  obtain ⟨first, later, rfl, _⟩ := hstarts
  cases fuel with
  | zero => cases hfuel
  | succ fuel =>
    rw [skipValue] at hyields ⊢
    exact (patient_peekSolid?.bind _).yields hblanks hyields

/-- An item that is passed over. -/
structure Item.IsPassed (item : Item) : Prop where
  spaced : item.Spaced
  starts : Starts item.content
  passed : Passed item.content

theorem Item.length_content_le (item : Item) : item.content.length ≤ item.characters.length := by
  rw [characters, List.length_append, List.length_append]
  omega

theorem Item.IsPassed.yields {item : Item} (hitem : item.IsPassed) {fuel : Nat}
    (hfuel : item.content.length ≤ fuel) (hclosed : Closed rest) :
    Yields (skipValue fuel) (item.characters ++ rest) () (item.after ++ rest) := by
  rw [Item.characters, List.append_assoc, List.append_assoc]
  exact hitem.passed.yields hitem.starts hfuel hitem.spaced.1 (hitem.spaced.2.closed_append hclosed)

/-- The items of a list are passed over, from the first one or from a comma on. -/
theorem yields_skipItems {items : List Item} (hitems : ∀ item ∈ items, item.IsPassed)
    {gap : List Char} (hgap : Blanks gap) (rest : List Char) (first : Bool) {blanks : List Char}
    (hblanks : Blanks blanks) {fuel : Nat}
    (hfuel : (listed first (items.map Item.characters) [']']).length ≤ fuel) :
    Yields (skipItems fuel first)
      (blanks ++ listed first (items.map Item.characters) (gap ++ ']' :: rest)) () rest := by
  induction items generalizing fuel first blanks with
  | nil =>
    cases fuel with
    | zero => cases hfuel
    | succ fuel =>
      have hfound := yields_peekSolid?_cons (List.forall_mem_append.mpr ⟨hblanks, hgap⟩) rest
        (show isBlank ']' = false from rfl)
      rw [List.append_assoc] at hfound
      rw [skipItems, List.map_nil, listed]
      exact hfound.bind (yields_pass 1 _)
  | cons item items ih =>
    obtain ⟨hitem, hlater⟩ := List.forall_mem_cons.mp hitems
    have hclosed := closed_listed (items.map Item.characters) (hgap.closed_list rest)
    have hafter := hitem.spaced.2
    obtain ⟨character, tail, htail, hsolid, hend⟩ := hitem.starts
    have hpiece : 0 < item.characters.length := by
      have hcontent := item.length_content_le
      rw [htail, List.length_cons] at hcontent
      omega
    cases fuel with
    | zero =>
      rw [length_listed] at hfuel
      cases hfuel
    | succ fuel =>
      obtain ⟨hhere, hmore⟩ := fuel_of_listed hfuel hpiece
      have hcontent := Nat.le_trans item.length_content_le hhere
      have hrest := ih hlater false hafter hmore
      rw [skipItems, List.map_cons]
      cases first with
      | true =>
        have hpassed := hitem.passed fuel _ hcontent (hafter.closed_append hclosed)
        have hfound := yields_peekSolid?_cons (List.forall_mem_append.mpr ⟨hblanks, hitem.spaced.1⟩)
          (tail ++ (item.after ++ listed false (items.map Item.characters) (gap ++ ']' :: rest)))
          hsolid
        rw [htail] at hpassed
        rw [listed, Item.characters, htail]
        simp only [List.append_assoc, List.cons_append] at hfound hpassed ⊢
        refine hfound.bind ?_
        split
        · rename_i hnone
          cases hnone
        · rename_i hsame
          exact absurd (Option.some.inj hsame) hend
        · exact hpassed.bind hrest
      | false =>
        rw [listed]
        refine (yields_peekSolid?_cons hblanks _ rfl).bind ((yields_pass 1 _).bind ?_)
        exact (hitem.yields hcontent hclosed).bind hrest

/-- A member that is passed over. -/
structure Member.IsPassed (entry : Member) : Prop where
  before : Blanks entry.before
  name : Body entry.name
  gap : Blanks entry.gap
  item : entry.item.IsPassed

theorem Member.length_characters_pos (entry : Member) : 0 < entry.characters.length := by
  rw [characters, List.length_append, List.length_cons]
  omega

theorem Member.length_content_le (entry : Member) :
    entry.item.content.length ≤ entry.characters.length := by
  have hitem := entry.item.length_content_le
  simp only [characters, List.length_append, List.length_cons]
  omega

/-- The scan that passes over a member from its name on, and over all that follows it. -/
def skipMembersFrom (fuel : Nat) : Scan Unit := do
  pass 1
  skipString
  colon
  skipValue fuel
  skipMembers fuel false

theorem Member.IsPassed.yields {entry : Member} (hentry : entry.IsPassed) {fuel : Nat}
    (hfuel : entry.item.content.length ≤ fuel) (hclosed : Closed rest) {left : List Char}
    (hmore : Yields (skipMembers fuel false) (entry.item.after ++ rest) () left) :
    Yields (skipMembersFrom fuel)
      ('"' :: (entry.name ++ '"' :: (entry.gap ++ ':' :: (entry.item.characters ++ rest)))) ()
      left := by
  refine (yields_pass 1 _).bind ((hentry.name.yields_skipString _).bind ?_)
  have hcolon : Patient colon := patient_peekSolid?.bind _
  refine (hcolon.yields hentry.gap (yields_colon _)).bind ?_
  exact (hentry.item.yields hfuel hclosed).bind hmore

/-- The members of an object are passed over, from the first one or from a comma on. -/
theorem yields_skipMembers {entries : List Member} (hentries : ∀ entry ∈ entries, entry.IsPassed)
    {gap : List Char} (hgap : Blanks gap) (rest : List Char) (first : Bool) {blanks : List Char}
    (hblanks : Blanks blanks) {fuel : Nat}
    (hfuel : (listed first (entries.map Member.characters) ['}']).length ≤ fuel) :
    Yields (skipMembers fuel first)
      (blanks ++ listed first (entries.map Member.characters) (gap ++ '}' :: rest)) () rest := by
  induction entries generalizing fuel first blanks with
  | nil =>
    cases fuel with
    | zero => cases hfuel
    | succ fuel =>
      have hfound := yields_peekSolid?_cons (List.forall_mem_append.mpr ⟨hblanks, hgap⟩) rest
        (show isBlank '}' = false from rfl)
      rw [List.append_assoc] at hfound
      rw [skipMembers, List.map_nil, listed]
      exact hfound.bind (yields_pass 1 _)
  | cons entry entries ih =>
    obtain ⟨hentry, hlater⟩ := List.forall_mem_cons.mp hentries
    have hclosed := closed_listed (entries.map Member.characters) (hgap.closed_object rest)
    cases fuel with
    | zero =>
      rw [length_listed] at hfuel
      cases hfuel
    | succ fuel =>
      obtain ⟨hhere, hmore⟩ := fuel_of_listed hfuel entry.length_characters_pos
      have hmember := hentry.yields (Nat.le_trans entry.length_content_le hhere) hclosed
        (ih hlater false hentry.item.spaced.2 hmore)
      rw [skipMembers, List.map_cons]
      cases first with
      | true =>
        have hfound := yields_peekSolid?_cons (List.forall_mem_append.mpr ⟨hblanks, hentry.before⟩)
          (entry.name ++ '"' :: (entry.gap ++ ':' :: (entry.item.characters ++
            listed false (entries.map Member.characters) (gap ++ '}' :: rest))))
          (show isBlank '"' = false from rfl)
        rw [listed, Member.characters]
        simp only [List.append_assoc, List.cons_append] at hfound ⊢
        refine hfound.bind ?_
        exact (yields_peekSolid?_cons (List.forall_mem_nil _) _ rfl).bind hmember
      | false =>
        rw [listed, Member.characters]
        simp only [List.append_assoc, List.cons_append]
        refine (yields_peekSolid?_cons hblanks _ rfl).bind ((yields_pass 1 _).bind ?_)
        exact (yields_peekSolid?_cons hentry.before _ rfl).bind hmember

/-- Every value is passed over. -/
theorem Value.passed {content : List Char} (hvalue : Value content) : Passed content := by
  induction hvalue with
  | null =>
    exact passed_of_skipScalar rfl (by decide) (by decide) fun rest _ ↦
      yields_skipScalar_of_scalar? (by decide) (by decide) rfl (yields_scalar?_null rest)
  | yes =>
    exact passed_of_skipScalar rfl (by decide) (by decide) fun rest _ ↦
      yields_skipScalar_of_scalar? (by decide) (by decide) rfl (yields_scalar?_true rest)
  | no =>
    exact passed_of_skipScalar rfl (by decide) (by decide) fun rest _ ↦
      yields_skipScalar_of_scalar? (by decide) (by decide) rfl (yields_scalar?_false rest)
  | number hnumber =>
    obtain ⟨first, later, rfl, hfirst⟩ := hnumber.exists_first
    have hother : isBlank first = false ∧ first ≠ '[' ∧ first ≠ '{' := by
      rcases hfirst with rfl | hdigit
      · decide
      · exact ⟨isBlank_of_isDigit hdigit, ne_of_isDigit hdigit rfl, ne_of_isDigit hdigit rfl⟩
    exact passed_of_skipScalar hother.1 hother.2.1 hother.2.2 fun rest hclosed ↦
      hnumber.yields_skipScalar hclosed
  | string hbody =>
    refine passed_of_skipScalar rfl (by decide) (by decide) fun rest _ ↦ ?_
    rw [List.append_assoc]
    exact (yields_peek? _).bind ((yields_pass 1 _).bind
      ((hbody.yields_skipString rest).bind (yields_pure _ _)))
  | @list gap items hgap hspaced hitems ih =>
    intro fuel rest hfuel _
    have hpassed : ∀ item ∈ items, item.IsPassed := fun item hitem ↦
      ⟨hspaced item hitem, (hitems item hitem).starts, ih item hitem⟩
    cases fuel with
    | zero => cases hfuel
    | succ fuel =>
      have hlength : (listed true (items.map Item.characters) [']']).length ≤ fuel := by
        rw [List.length_cons, length_listed, List.length_append] at hfuel
        rw [length_listed]
        omega
      rw [List.cons_append, listed_append, List.append_assoc, skipValue]
      refine (yields_peekSolid?_cons (List.forall_mem_nil _) _ rfl).bind ((yields_pass 1 _).bind ?_)
      exact yields_skipItems hpassed hgap rest true (List.forall_mem_nil _) hlength
  | @object gap entries hgap hspaced hnames hvalues ih =>
    intro fuel rest hfuel _
    have hpassed : ∀ entry ∈ entries, entry.IsPassed := fun entry hentry ↦
      ⟨(hspaced entry hentry).1, hnames entry hentry, (hspaced entry hentry).2.1,
        (hspaced entry hentry).2.2, (hvalues entry hentry).starts, ih entry hentry⟩
    cases fuel with
    | zero => cases hfuel
    | succ fuel =>
      have hlength : (listed true (entries.map Member.characters) ['}']).length ≤ fuel := by
        rw [List.length_cons, length_listed, List.length_append] at hfuel
        rw [length_listed]
        omega
      rw [List.cons_append, listed_append, List.append_assoc, skipValue]
      refine (yields_peekSolid?_cons (List.forall_mem_nil _) _ rfl).bind ((yields_pass 1 _).bind ?_)
      exact yields_skipMembers hpassed hgap rest true (List.forall_mem_nil _) hlength

end Values

end ComponentGraph.Json
