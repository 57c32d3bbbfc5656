import ComponentGraph.Options.Decode
import ComponentGraph.Proofs.JsonGrammar
import Mathlib.Data.List.Forall2

/-!
# Options are read field by field

An object gives options by its members. A member has the name of a field (`Names`) and writes a
value of the type of that field (`Field.Writes`), or it has another name and any value at all; what
may be and what may not is said by `Admissible`. None of this speaks of the reader: names may be
spelled with escapes, blanks may stand between all the parts, and the members come in any order.

The reader goes from member to member, and what carries it is that the fields that were given before
are not given again. One member gives one field or none (`yields_readMembers_known`,
`yields_readMembers_unknown`), and a run over all of them comes to a layer that gives every field
the value of its member (`Admissible.yields_readMembers`). If a field is given twice, the run fails
at the second member or before, since a value that is refused ends it too. It fails as well if a
name stands for no text (`Nameless`), because names are read before it is known whether they matter
(`meets_readMembers`). What is written of options is an object with one member for each field
(`parse_print`).
-/

set_option autoImplicit false
set_option relaxedAutoImplicit false

namespace ComponentGraph.Json

/-- Characters that write a text. -/
def Quotes (characters : List Char) (text : String) : Prop :=
  ∃ body, characters = '"' :: (body ++ ['"']) ∧ Spells body text.toList

theorem Quotes.starts {characters : List Char} {text : String} (hquotes : Quotes characters text) :
    Starts characters := by
  obtain ⟨body, rfl, _⟩ := hquotes
  exact ⟨_, _, rfl, rfl, by decide⟩

/-- A text that is an object with these members. -/
def WritesObject (entries : List Member) (text : String) : Prop :=
  (∀ entry ∈ entries, entry.Spaced) ∧ ∃ lead gap trail, Blanks lead ∧ Blanks gap ∧ Blanks trail ∧
    text.toList = lead ++ '{' :: listed true (entries.map Member.characters) (gap ++ '}' :: trail)

theorem length_add_le_listed (pieces : List (List Char)) (rest : List Char) :
    pieces.length + rest.length ≤ (listed false pieces rest).length := by
  induction pieces with
  | nil => exact Nat.le_of_eq (Nat.zero_add _)
  | cons piece pieces ih =>
    rw [listed, List.length_cons, List.length_cons, List.length_append]
    omega

/-- There are no more items or members than characters. Assumes: something follows them. -/
theorem length_lt_listed (pieces : List (List Char)) {rest : List Char} (hrest : rest ≠ []) :
    pieces.length < (listed true pieces rest).length + 1 := by
  cases pieces with
  | nil => exact Nat.succ_pos _
  | cons piece pieces =>
    have hmore := length_add_le_listed pieces rest
    have hsome := List.length_pos_of_ne_nil hrest
    rw [listed, List.length_cons, List.length_append]
    omega

theorem Yields.unique {α : Type} {scan : Scan α} {characters first second : List Char}
    {value other : α} (hvalue : Yields scan characters value first)
    (hother : Yields scan characters other second) : value = other := by
  obtain ⟨_, hfirst⟩ := hvalue 0
  obtain ⟨_, hsecond⟩ := hother 0
  cases hfirst.symm.trans hsecond
  rfl

theorem readAll_error {α : Type} {reader : Scan α} {text : String}
    (hfails : Meets reader text.toList fun _ _ ↦ False) :
    ∃ failure, readAll reader text = .error failure := by
  have hwhole : Meets (do let found ← reader; finishText; return found) text.toList
      fun _ _ ↦ False := hfails.bind fun _ _ hnever ↦ hnever.elim
  cases hread : (do let found ← reader; finishText; return found : Scan α).run (.ofText text) with
  | error failure =>
    refine ⟨failure, ?_⟩
    rw [readAll, hread]
    rfl
  | ok result => exact (hwhole 0 result.1 result.2 hread).elim

theorem Number.first_cases {content : List Char} (hnumber : Number content) :
    ∃ first later, content = first :: later ∧ isBlank first = false ∧
      (first = '-' ∨ isDigit first = true) := by
  obtain ⟨first, later, rfl, hfirst⟩ := hnumber.exists_first
  obtain ⟨_, _, hsame, hsolid, _⟩ := (Value.number hnumber).starts
  cases hsame
  exact ⟨first, later, rfl, hsolid, hfirst⟩

end ComponentGraph.Json

namespace ComponentGraph.Options

open Json

/-! ### Values of a type -/

/-- Characters that write a natural number of sixty-four bits. -/
def WritesNatural (characters : List Char) (value : Nat) : Prop :=
  value ≤ largestNatural ∧ characters = Nat.toDigits 10 value

/-- Characters that write a truth value. -/
def WritesBoolean (characters : List Char) (value : Bool) : Prop :=
  characters = if value then ['t', 'r', 'u', 'e'] else ['f', 'a', 'l', 's', 'e']

/-- Characters that write a list of texts. -/
def WritesTexts (characters : List Char) (values : List String) : Prop :=
  ∃ items gap, Blanks gap ∧ (∀ item ∈ items, item.Spaced) ∧
    List.Forall₂ (fun item value ↦ Quotes item.content value) items values ∧
    characters = '[' :: listed true (items.map Item.characters) (gap ++ [']'])

section Typed

variable {α : Type} {wanted : Char → Prop} [DecidablePred wanted] {reader : Scan α}
  {expected : String} {first : Char} {later : List Char}

theorem yields_valueStart (hsolid : isBlank first = false) (later : List Char) :
    Yields valueStart (first :: later) first (first :: later) :=
  (yields_peekSolid?_cons (List.forall_mem_nil _) later hsolid).bind (yields_pure _ _)

theorem meets_unexpectedType (expected : String) (characters : List Char)
    (result : α → List Char → Prop) : Meets (unexpectedType expected) characters result := by
  refine (yields_peek? _).bind_meets ?_
  split
  · exact meets_failHere _ _
  · exact meets_failHere _ _
  · have hany : Meets scalar? characters fun _ _ ↦ True := fun _ _ _ _ ↦ trivial
    refine hany.bind fun found left _ ↦ ?_
    split
    · exact meets_failHere _ _
    · exact meets_failAhead _ _

theorem patient_typed (reader : Scan α) (expected : String) :
    Patient (valueStart >>= fun start ↦
      if wanted start then reader else unexpectedType expected) :=
  (patient_peekSolid?.bind _).bind _

/-- A value is read if it begins as expected. -/
theorem yields_typed (hsolid : isBlank first = false) (hwanted : wanted first) {value : α}
    {left : List Char} (hreader : Yields reader (first :: later) value left) :
    Yields (valueStart >>= fun start ↦ if wanted start then reader else unexpectedType expected)
      (first :: later) value left := by
  refine (yields_valueStart hsolid later).bind ?_
  rwa [if_pos hwanted]

/-- A value is refused unless it begins as expected. -/
theorem meets_typed (hsolid : isBlank first = false) {result : α → List Char → Prop}
    (hreader : wanted first → Meets reader (first :: later) result) :
    Meets (valueStart >>= fun start ↦ if wanted start then reader else unexpectedType expected)
      (first :: later) result := by
  refine (yields_valueStart hsolid later).bind_meets ?_
  split
  · exact hreader ‹_›
  · exact meets_unexpectedType _ _ _

/-- A number is refused where no number is expected. -/
theorem meets_typed_number {content : List Char} (hnumber : Number content)
    (hother : ∀ start, wanted start → start ≠ '-' ∧ isDigit start = false) (rest : List Char)
    (result : α → List Char → Prop) :
    Meets (valueStart >>= fun start ↦ if wanted start then reader else unexpectedType expected)
      (content ++ rest) result := by
  obtain ⟨first, later, rfl, hsolid, hfirst⟩ := hnumber.first_cases
  refine meets_typed hsolid fun hwanted ↦ ?_
  obtain ⟨hminus, hdigit⟩ := hother first hwanted
  rcases hfirst with hsame | hsame
  · exact absurd hsame hminus
  · cases hdigit.symm.trans hsame

end Typed

section Values

variable {content rest : List Char}

theorem yields_natural {value : Nat} (hwrites : WritesNatural content value)
    (hclosed : Closed rest) : Yields natural (content ++ rest) value rest := by
  obtain ⟨hrange, rfl⟩ := hwrites
  have hnumber := yields_number hrange hclosed
  obtain ⟨first, later, hdigits, hfirst⟩ := exists_digit_cons value
  rw [hdigits] at hnumber ⊢
  refine yields_typed (isBlank_of_isDigit hfirst) (Or.inr hfirst) ?_
  refine (yields_scalar?_of_digit hfirst hnumber).bind ?_
  show Yields (if 0 ≤ (value : Int) then _ else _) _ _ _
  rw [if_pos (Int.natCast_nonneg value)]
  exact yields_pure _ _

theorem meets_natural (hvalue : Value content) (hclosed : Closed rest) :
    Meets natural (content ++ rest) fun _ left ↦ left = rest := by
  cases hvalue with
  | number hnumber =>
    have hread := hnumber.meets_scalar? hclosed
    obtain ⟨first, later, rfl, hsolid, _⟩ := hnumber.first_cases
    refine meets_typed hsolid fun _ ↦ hread.bind fun found left hleft ↦ ?_
    split
    · split
      · exact meets_pure hleft
      · exact meets_failHere _ _
    · exact meets_failHere _ _
    · exact meets_failAhead _ _
  | _ => exact meets_typed rfl fun hwanted ↦ absurd hwanted (by decide)

theorem yields_boolean {value : Bool} (hwrites : WritesBoolean content value) (rest : List Char) :
    Yields boolean (content ++ rest) value rest := by
  cases hwrites
  cases value with
  | true => exact yields_typed rfl (Or.inl rfl) ((yields_scalar?_true rest).bind (yields_pure _ _))
  | false =>
    exact yields_typed rfl (Or.inr rfl) ((yields_scalar?_false rest).bind (yields_pure _ _))

theorem meets_boolean (hvalue : Value content) (rest : List Char) :
    Meets boolean (content ++ rest) fun _ left ↦ left = rest := by
  cases hvalue with
  | yes => exact meets_typed rfl fun _ ↦ (yields_scalar?_true rest).bind_meets (meets_pure rfl)
  | no => exact meets_typed rfl fun _ ↦ (yields_scalar?_false rest).bind_meets (meets_pure rfl)
  | number hnumber =>
    refine meets_typed_number hnumber ?_ rest _
    rintro _ (rfl | rfl) <;> decide
  | _ => exact meets_typed rfl fun hwanted ↦ absurd hwanted (by decide)

theorem yields_text {value : String} (hquotes : Quotes content value) (rest : List Char) :
    Yields text (content ++ rest) value rest := by
  obtain ⟨body, rfl, hspells⟩ := hquotes
  have hstring := hspells.yields_string rest
  rw [String.ofList_toList] at hstring
  rw [List.cons_append, List.append_assoc]
  refine yields_typed (show isBlank '"' = false from rfl) rfl ?_
  exact (yields_pass 1 _).bind hstring

theorem meets_text (hvalue : Value content) (rest : List Char) :
    Meets text (content ++ rest) fun _ left ↦ left = rest := by
  cases hvalue with
  | string hbody =>
    rw [List.cons_append, List.append_assoc]
    have hstring := (hbody.meets_string rest).imp fun _ _ hread ↦ hread.1
    exact meets_typed rfl fun _ ↦ (yields_pass 1 _).bind_meets hstring
  | number hnumber =>
    refine meets_typed_number hnumber ?_ rest _
    rintro _ rfl
    decide
  | _ => exact meets_typed rfl fun hwanted ↦ absurd hwanted (by decide)

/-- The next item of a list is found, from the first one or from a comma on. -/
theorem yields_moreItems {item : Item} (hspaced : item.Spaced) (hstarts : Starts item.content)
    (first : Bool) {blanks : List Char} (hblanks : Blanks blanks) (pieces : List (List Char))
    (rest : List Char) :
    Yields (moreItems first) (blanks ++ listed first (item.characters :: pieces) rest) true
      (item.content ++ (item.after ++ listed false pieces rest)) := by
  have hlater := hstarts.append (item.after ++ listed false pieces rest)
  cases first with
  | true =>
    have hfound := yields_moreItems_first (List.forall_mem_append.mpr ⟨hblanks, hspaced.1⟩) hlater
    rw [listed, Item.characters]
    simp only [List.append_assoc] at hfound ⊢
    exact hfound
  | false =>
    have hpatient : Patient (moreItems false) := patient_peekSolid?.bind _
    have hfound := hpatient.yields hblanks (yields_moreItems_next hspaced.1 hlater)
    rw [listed, Item.characters]
    simp only [List.append_assoc]
    exact hfound

theorem yields_moreItems_close (first : Bool) {blanks gap : List Char} (hblanks : Blanks blanks)
    (hgap : Blanks gap) (rest : List Char) :
    Yields (moreItems first) (blanks ++ listed first [] (gap ++ ']' :: rest)) false
      (']' :: rest) := by
  have hend := yields_moreItems_end (List.forall_mem_append.mpr ⟨hblanks, hgap⟩) rest first
  rwa [List.append_assoc] at hend

theorem yields_texts {items : List Item} {values : List String}
    (hspaced : ∀ item ∈ items, item.Spaced)
    (hquotes : List.Forall₂ (fun item value ↦ Quotes item.content value) items values)
    {gap : List Char} (hgap : Blanks gap) (rest : List Char) (first : Bool) {blanks : List Char}
    (hblanks : Blanks blanks) {fuel : Nat} (hfuel : items.length < fuel) :
    Yields (texts fuel first)
      (blanks ++ listed first (items.map Item.characters) (gap ++ ']' :: rest)) values
      (']' :: rest) := by
  induction hquotes generalizing fuel first blanks with
  | nil =>
    obtain ⟨fuel, rfl⟩ := Nat.exists_eq_add_one_of_ne_zero (Nat.ne_zero_of_lt hfuel)
    rw [texts]
    exact (yields_moreItems_close first hblanks hgap rest).bind (yields_pure _ _)
  | @cons item value items values hquote _ ih =>
    obtain ⟨hhere, hlater⟩ := List.forall_mem_cons.mp hspaced
    obtain ⟨fuel, rfl⟩ := Nat.exists_eq_add_one_of_ne_zero (Nat.ne_zero_of_lt hfuel)
    rw [texts, List.map_cons]
    refine (yields_moreItems hhere hquote.starts first hblanks _ _).bind ?_
    refine (yields_text hquote _).bind ?_
    exact (ih hlater false hhere.2 (Nat.lt_of_succ_lt_succ hfuel)).bind (yields_pure _ _)

theorem meets_texts {items : List Item} (hspaced : ∀ item ∈ items, item.Spaced)
    (hvalues : ∀ item ∈ items, Value item.content) {gap : List Char} (hgap : Blanks gap)
    (rest : List Char) (first : Bool) {blanks : List Char} (hblanks : Blanks blanks) (fuel : Nat) :
    Meets (texts fuel first)
      (blanks ++ listed first (items.map Item.characters) (gap ++ ']' :: rest))
      fun _ left ↦ left = ']' :: rest := by
  induction items generalizing fuel first blanks with
  | nil =>
    cases fuel with
    | zero => exact meets_failHere _ _
    | succ fuel =>
      rw [texts]
      exact (yields_moreItems_close first hblanks hgap rest).bind_meets (meets_pure rfl)
  | cons item items ih =>
    obtain ⟨hhere, hlater⟩ := List.forall_mem_cons.mp hspaced
    obtain ⟨hvalue, hmore⟩ := List.forall_mem_cons.mp hvalues
    cases fuel with
    | zero => exact meets_failHere _ _
    | succ fuel =>
      rw [texts, List.map_cons]
      refine (yields_moreItems hhere hvalue.starts first hblanks _ _).bind_meets ?_
      refine (meets_text hvalue _).bind fun _ left hleft ↦ ?_
      rw [hleft]
      exact (ih hlater hmore false hhere.2 fuel).bind fun _ _ hend ↦ meets_pure hend

theorem yields_textList {values : List String} (hwrites : WritesTexts content values)
    (rest : List Char) : Yields textList (content ++ rest) values rest := by
  obtain ⟨items, gap, hgap, hspaced, hquotes, rfl⟩ := hwrites
  rw [List.cons_append, listed_append, List.append_assoc]
  refine yields_typed (show isBlank '[' = false from rfl) rfl ?_
  refine (yields_pass 1 _).bind (yields_get fun offset ↦ ?_)
  have hfuel := length_lt_listed (items.map Item.characters)
    (List.append_ne_nil_of_right_ne_nil gap (List.cons_ne_nil ']' rest))
  rw [List.length_map] at hfuel
  have htexts := yields_texts hspaced hquotes hgap rest true (List.forall_mem_nil _) hfuel
  exact htexts.bind ((yields_closeList (List.forall_mem_nil _) rest).bind (yields_pure _ _))

theorem meets_textList (hvalue : Value content) (rest : List Char) :
    Meets textList (content ++ rest) fun _ left ↦ left = rest := by
  cases hvalue with
  | @list gap items hgap hspaced hitems =>
    rw [List.cons_append, listed_append, List.append_assoc]
    refine meets_typed rfl fun _ ↦ (yields_pass 1 _).bind_meets (meets_get fun offset ↦ ?_)
    have htexts := meets_texts hspaced hitems hgap rest true (List.forall_mem_nil _)
    refine (htexts _).bind fun _ left hleft ↦ ?_
    rw [hleft]
    exact (yields_closeList (List.forall_mem_nil _) rest).bind_meets (meets_pure rfl)
  | number hnumber =>
    refine meets_typed_number hnumber ?_ rest _
    rintro _ rfl
    decide
  | _ => exact meets_typed rfl fun hwanted ↦ absurd hwanted (by decide)

end Values

/-! ### Fields -/

namespace Field

/-- The type of the values of a field. -/
def Content : Field → Type
  | .maxNodes => Nat
  | .includeLibraries => Bool
  | .focusComponent => String
  | .importDepth => Nat
  | .ignores => List String

/-- The value of a field. -/
def get : (field : Field) → Options → field.Content
  | .maxNodes, options => options.maxNodes
  | .includeLibraries, options => options.includeLibraries
  | .focusComponent, options => options.focusComponent
  | .importDepth, options => options.importDepth
  | .ignores, options => options.ignores

/-- The value that a layer gives to a field, if it gives one. -/
def given? : (field : Field) → Layer → Option field.Content
  | .maxNodes, layer => layer.maxNodes
  | .includeLibraries, layer => layer.includeLibraries
  | .focusComponent, layer => layer.focusComponent
  | .importDepth, layer => layer.importDepth
  | .ignores, layer => layer.ignores

/-- A layer that gives a value to a field, and all else that it gave. -/
def put : (field : Field) → field.Content → Layer → Layer
  | .maxNodes, value, layer => { layer with maxNodes := some value }
  | .includeLibraries, value, layer => { layer with includeLibraries := some value }
  | .focusComponent, value, layer => { layer with focusComponent := some value }
  | .importDepth, value, layer => { layer with importDepth := some value }
  | .ignores, value, layer => { layer with ignores := some value }

/-- The scan for a value of a field. -/
def scan : (field : Field) → Scan field.Content
  | .maxNodes => natural
  | .includeLibraries => boolean
  | .focusComponent => text
  | .importDepth => natural
  | .ignores => textList

/-- Characters that write a value of a field. -/
def Writes : (field : Field) → List Char → field.Content → Prop
  | .maxNodes => WritesNatural
  | .includeLibraries => WritesBoolean
  | .focusComponent => Quotes
  | .importDepth => WritesNatural
  | .ignores => WritesTexts

theorem given?_put (field : Field) (value : field.Content) (layer : Layer) :
    field.given? (field.put value layer) = some value := by
  cases field <;> rfl

theorem given?_put_of_ne {field other : Field} (hother : other ≠ field) (value : field.Content)
    (layer : Layer) : other.given? (field.put value layer) = other.given? layer := by
  cases field <;> cases other <;> first | rfl | exact absurd rfl hother

theorem get_atop (field : Field) (layer : Layer) (base : Options) :
    field.get (layer.atop base) = (field.given? layer).getD (field.get base) := by
  cases field <;> rfl

theorem read_eq (field : Field) (layer : Layer) :
    field.read layer = field.scan >>= fun value ↦ pure (field.put value layer) := by
  cases field <;> rfl

theorem patient_scan (field : Field) : Patient field.scan := by
  cases field <;> exact patient_typed _ _

variable {field : Field} {content rest : List Char}

theorem Writes.yields_scan {value : field.Content} (hwrites : field.Writes content value)
    (hclosed : Closed rest) : Yields field.scan (content ++ rest) value rest := by
  cases field with
  | maxNodes => exact yields_natural hwrites hclosed
  | includeLibraries => exact yields_boolean hwrites rest
  | focusComponent => exact yields_text hwrites rest
  | importDepth => exact yields_natural hwrites hclosed
  | ignores => exact yields_textList hwrites rest

/-- Whatever value a field is given, it is refused or it is read to its end. -/
theorem meets_scan (field : Field) (hvalue : Value content) (hclosed : Closed rest) :
    Meets field.scan (content ++ rest) fun _ left ↦ left = rest := by
  cases field with
  | maxNodes => exact meets_natural hvalue hclosed
  | includeLibraries => exact meets_boolean hvalue rest
  | focusComponent => exact meets_text hvalue rest
  | importDepth => exact meets_natural hvalue hclosed
  | ignores => exact meets_textList hvalue rest

theorem ofName?_name (field : Field) : ofName? field.name = some field := by
  cases field <;> decide

theorem ofName?_eq_none {name : String} (hother : ∀ field : Field, field.name ≠ name) :
    ofName? name = none := by
  refine List.find?_eq_none.mpr fun field _ hsame ↦ ?_
  exact hother field (beq_iff_eq.mp hsame)

end Field

theorem eq_of_get {first second : Options}
    (hsame : ∀ field : Field, field.get first = field.get second) : first = second := by
  obtain ⟨_, _, _, _, _⟩ := first
  obtain ⟨_, _, _, _, _⟩ := second
  rw [Options.mk.injEq]
  exact ⟨hsame .maxNodes, hsame .includeLibraries, hsame .focusComponent, hsame .importDepth,
    hsame .ignores⟩

/-! ### Members -/

/-- Whether a member has the name of a field, however the name is spelled. -/
def Names (entry : Member) (field : Field) : Prop :=
  Spells entry.name field.name.toList

/-- What a member may be: a value of the right type for a field, or any value under another name.
The other name has to stand for a text too; half of a pair alone does not, and a member with such a
name is no member to pass over (`parse_of_refused`). A number is written without a sign, so `-0` is
none. -/
inductive Admits (entry : Member) : Prop where
  | known {field : Field} {value : field.Content} (hname : Names entry field)
      (hvalue : field.Writes entry.item.content value)
  | unknown {name : String} (hname : Spells entry.name name.toList)
      (hother : ∀ field : Field, field.name ≠ name) (hvalue : Value entry.item.content)

/-- Members that give options: each is one that may be, and no field is given twice. -/
structure Admissible (entries : List Member) : Prop where
  admits : ∀ entry ∈ entries, Admits entry
  once : entries.Pairwise fun first second ↦ ∀ field, Names first field → ¬ Names second field

/-- Whether one of the members gives a field a value. -/
def Gives (entries : List Member) (field : Field) (value : field.Content) : Prop :=
  ∃ entry ∈ entries, Names entry field ∧ field.Writes entry.item.content value

section Members

variable {entry : Member} {field other : Field} {blanks gap rest : List Char}

theorem Names.yields_string (hname : Names entry field) (rest : List Char) :
    Yields string (entry.name ++ '"' :: rest) field.name rest := by
  have hstring := Spells.yields_string hname rest
  rwa [String.ofList_toList] at hstring

theorem Names.name_eq (hname : Names entry field) {name : String}
    (hspells : Spells entry.name name.toList) : field.name = name := by
  have hsame := (hname.yields_string []).unique (hspells.yields_string [])
  rwa [String.ofList_toList] at hsame

theorem Names.unique (hname : Names entry field) (hother : Names entry other) : field = other := by
  have hfields := congrArg Field.ofName? (hname.name_eq hother)
  rw [Field.ofName?_name, Field.ofName?_name] at hfields
  exact Option.some.inj hfields

theorem Field.Writes.unique {content : List Char} {value second : field.Content}
    (hvalue : field.Writes content value) (hsecond : field.Writes content second) :
    value = second := by
  have hclosed : Closed [] := fun _ hnone ↦ nomatch hnone
  exact (Field.Writes.yields_scan hvalue hclosed).unique (Field.Writes.yields_scan hsecond hclosed)

theorem Admissible.tail {entries : List Member} (hentries : Admissible (entry :: entries)) :
    Admissible entries where
  admits := (List.forall_mem_cons.mp hentries.admits).2
  once := (List.pairwise_cons.mp hentries.once).2

theorem Admissible.not_names {entries : List Member} (hentries : Admissible (entry :: entries))
    (hname : Names entry field) : ∀ later ∈ entries, ¬ Names later field :=
  fun later hlater ↦ (List.pairwise_cons.mp hentries.once).1 later hlater field hname

/-- The next member of an object is found, from the first one or from a comma on. -/
theorem yields_moreMembers (hbefore : Blanks entry.before) (first : Bool) (hblanks : Blanks blanks)
    (pieces : List (List Char)) (rest : List Char) :
    Yields (moreMembers first) (blanks ++ listed first (entry.characters :: pieces) rest) true
      ('"' :: (entry.name ++ '"' :: (entry.gap ++ ':' :: (entry.item.characters ++
        listed false pieces rest)))) := by
  cases first with
  | true =>
    have hfound := yields_moreMembers_first (List.forall_mem_append.mpr ⟨hblanks, hbefore⟩)
      (entry.name ++ '"' :: (entry.gap ++ ':' :: (entry.item.characters ++
        listed false pieces rest)))
    rw [listed, Member.characters]
    simp only [List.append_assoc, List.cons_append] at hfound ⊢
    exact hfound
  | false =>
    have hpatient : Patient (moreMembers false) := patient_peekSolid?.bind _
    have hfound := hpatient.yields hblanks (yields_moreMembers_next hbefore
      (entry.name ++ '"' :: (entry.gap ++ ':' :: (entry.item.characters ++
        listed false pieces rest))))
    rw [listed, Member.characters]
    simp only [List.append_assoc, List.cons_append]
    exact hfound

theorem yields_moreMembers_close (first : Bool) (hblanks : Blanks blanks) (hgap : Blanks gap)
    (rest : List Char) :
    Yields (moreMembers first) (blanks ++ listed first [] (gap ++ '}' :: rest)) false
      ('}' :: rest) := by
  have hend := yields_moreMembers_end (List.forall_mem_append.mpr ⟨hblanks, hgap⟩) rest first
  rwa [List.append_assoc] at hend

theorem yields_colon_gap (hgap : Blanks gap) (rest : List Char) :
    Yields colon (gap ++ ':' :: rest) () rest :=
  (patient_peekSolid?.bind _ : Patient colon).yields hgap (yields_colon rest)

theorem yields_skip_item {item : Item} (hspaced : item.Spaced) (hvalue : Value item.content)
    (hclosed : Closed rest) :
    Yields (skipValue (enoughFuel (item.characters ++ rest).length)) (item.characters ++ rest) ()
      (item.after ++ rest) := by
  have hpassed : item.IsPassed := ⟨hspaced, hvalue.starts, hvalue.passed⟩
  refine hpassed.yields ?_ hclosed
  have hcontent := item.length_content_le
  rw [enoughFuel, List.length_append]
  omega

section Step

variable {fuel : Nat} {first : Bool} {given : List Field} {layer final : Layer}
  {pieces : List (List Char)} {tail left : List Char} (hspaced : entry.Spaced)
  (hblanks : Blanks blanks) (hclosed : Closed (listed false pieces tail))

include hspaced hblanks hclosed

/-- A member with the name of a field is read into the field. -/
theorem yields_readMembers_known {value : field.Content} (hname : Names entry field)
    (hvalue : field.Writes entry.item.content value) (hnew : field ∉ given)
    (hrest : Yields (readMembers fuel false (field :: given) (field.put value layer))
      (entry.item.after ++ listed false pieces tail) final left) :
    Yields (readMembers (fuel + 1) first given layer)
      (blanks ++ listed first (entry.characters :: pieces) tail) final left := by
  obtain ⟨hbefore, hgap, hitem⟩ := hspaced
  have hscan : Yields field.scan (entry.item.characters ++ listed false pieces tail) value
      (entry.item.after ++ listed false pieces tail) := by
    rw [Item.characters, List.append_assoc, List.append_assoc]
    exact field.patient_scan.yields hitem.1 (hvalue.yields_scan (hitem.2.closed_append hclosed))
  have hcontains : ¬ given.contains field = true := by
    rwa [List.contains_iff_mem]
  rw [readMembers]
  refine (yields_moreMembers hbefore first hblanks pieces tail).bind ((yields_pass 1 _).bind ?_)
  refine (hname.yields_string _).bind ?_
  rw [Field.ofName?_name]
  show Yields (if given.contains field = true then _ else _) _ _ _
  rw [if_neg hcontains]
  have hread : Yields (field.read layer) (entry.item.characters ++ listed false pieces tail)
      (field.put value layer) (entry.item.after ++ listed false pieces tail) := by
    rw [field.read_eq]
    exact hscan.bind (yields_pure _ _)
  exact (yields_colon_gap hgap _).bind (hread.bind hrest)

/-- A member with another name is passed over. -/
theorem yields_readMembers_unknown {name : String} (hname : Spells entry.name name.toList)
    (hother : ∀ field : Field, field.name ≠ name) (hvalue : Value entry.item.content)
    (hrest : Yields (readMembers fuel false given layer)
      (entry.item.after ++ listed false pieces tail) final left) :
    Yields (readMembers (fuel + 1) first given layer)
      (blanks ++ listed first (entry.characters :: pieces) tail) final left := by
  obtain ⟨hbefore, hgap, hitem⟩ := hspaced
  have hstring := hname.yields_string (entry.gap ++ ':' :: (entry.item.characters ++
    listed false pieces tail))
  rw [String.ofList_toList] at hstring
  rw [readMembers]
  refine (yields_moreMembers hbefore first hblanks pieces tail).bind ((yields_pass 1 _).bind ?_)
  refine hstring.bind ?_
  rw [Field.ofName?_eq_none hother]
  refine (yields_colon_gap hgap _).bind (yields_get fun offset ↦ ?_)
  exact (yields_skip_item hitem hvalue hclosed).bind hrest

end Step

/-- The members of an object are read, and a layer gives each field the value that a member gives
it, or what it gave before. Assumes: the fields that were given before are not given again. -/
theorem Admissible.yields_readMembers {entries : List Member} (hentries : Admissible entries)
    (hspaced : ∀ entry ∈ entries, entry.Spaced) (hgap : Blanks gap) (rest : List Char)
    (first : Bool) (hblanks : Blanks blanks) {fuel : Nat} (hfuel : entries.length < fuel)
    {given : List Field}
    (hgiven : ∀ field ∈ given, ∀ entry ∈ entries, ¬ Names entry field) (layer : Layer) :
    ∃ final,
      Yields (readMembers fuel first given layer)
        (blanks ++ listed first (entries.map Member.characters) (gap ++ '}' :: rest)) final
        ('}' :: rest) ∧
      (∀ field value, Gives entries field value → field.given? final = some value) ∧
      ∀ field : Field, (∀ entry ∈ entries, ¬ Names entry field) →
        field.given? final = field.given? layer := by
  induction entries generalizing fuel first blanks given layer with
  | nil =>
    obtain ⟨fuel, rfl⟩ := Nat.exists_eq_add_one_of_ne_zero (Nat.ne_zero_of_lt hfuel)
    refine ⟨layer, ?_, fun field value hgives ↦ ?_, fun _ _ ↦ rfl⟩
    · rw [readMembers]
      exact (yields_moreMembers_close first hblanks hgap rest).bind (yields_pure _ _)
    · obtain ⟨entry, hentry, _⟩ := hgives
      cases hentry
  | cons entry entries ih =>
    obtain ⟨fuel, rfl⟩ := Nat.exists_eq_add_one_of_ne_zero (Nat.ne_zero_of_lt hfuel)
    obtain ⟨hhere, hlater⟩ := List.forall_mem_cons.mp hspaced
    have hmore := Nat.lt_of_succ_lt_succ hfuel
    have hclosed := closed_listed (entries.map Member.characters) (hgap.closed_object rest)
    have hstill : ∀ field ∈ given, ∀ entry ∈ entries, ¬ Names entry field :=
      fun field hfield ↦ (List.forall_mem_cons.mp (hgiven field hfield)).2
    cases hentries.admits entry List.mem_cons_self with
    | @known field value hname hvalue =>
      have hnew : field ∉ given := fun hfield ↦
        hgiven field hfield entry List.mem_cons_self hname
      have hnever := hentries.not_names hname
      obtain ⟨final, hyields, hgives, hkeeps⟩ := ih hentries.tail hlater false hhere.2.2.2 hmore
        (List.forall_mem_cons.mpr ⟨hnever, hstill⟩) (field.put value layer)
      refine ⟨final, yields_readMembers_known hhere hblanks hclosed hname hvalue hnew hyields,
        ?_, ?_⟩
      · rintro other second ⟨giver, hgiver, hnames, hwrites⟩
        rcases List.mem_cons.mp hgiver with rfl | hlaterGiver
        · cases hname.unique hnames
          rw [hkeeps field hnever, Field.given?_put, Field.Writes.unique hvalue hwrites]
        · exact hgives other second ⟨giver, hlaterGiver, hnames, hwrites⟩
      · intro other hothers
        obtain ⟨hnot, hnots⟩ := List.forall_mem_cons.mp hothers
        have hne : other ≠ field := fun hsame ↦ hnot (hsame ▸ hname)
        rw [hkeeps other hnots, Field.given?_put_of_ne hne]
    | @unknown name hname hother hvalue =>
      obtain ⟨final, hyields, hgives, hkeeps⟩ := ih hentries.tail hlater false hhere.2.2.2 hmore
        hstill layer
      refine ⟨final, yields_readMembers_unknown hhere hblanks hclosed hname hother hvalue hyields,
        ?_, fun field hfields ↦ hkeeps field (List.forall_mem_cons.mp hfields).2⟩
      rintro field value ⟨giver, hgiver, hnames, hwrites⟩
      rcases List.mem_cons.mp hgiver with rfl | hlaterGiver
      · exact absurd (hnames.name_eq hname) (hother field)
      · exact hgives field value ⟨giver, hlaterGiver, hnames, hwrites⟩

/-- Whether a field is given twice: by two of the members, or by one of them and before. -/
def Repeats (given : List Field) (entries : List Member) : Prop :=
  (∃ field ∈ given, ∃ entry ∈ entries, Names entry field) ∨
    ∃ (field : Field) (first second : Member), [first, second].Sublist entries ∧
      Names first field ∧ Names second field

theorem Repeats.cons_given {given : List Field} {entries : List Member}
    (hrepeats : Repeats given entries) (field : Field) : Repeats (field :: given) entries := by
  rcases hrepeats with ⟨found, hfound, hnames⟩ | htwo
  · exact Or.inl ⟨found, List.mem_cons_of_mem field hfound, hnames⟩
  · exact Or.inr htwo

/-- A field is given again by the first member, or after it. -/
theorem Repeats.of_cons {given : List Field} {entries : List Member}
    (hrepeats : Repeats given (entry :: entries)) :
    Repeats given entries ∨
      ∃ field, Names entry field ∧ (field ∈ given ∨ Repeats (field :: given) entries) := by
  rcases hrepeats with ⟨field, hfield, found, hfound, hname⟩ | ⟨field, first, second, hpair, hfirst,
    hsecond⟩
  · rcases List.mem_cons.mp hfound with rfl | hlater
    · exact Or.inr ⟨field, hname, Or.inl hfield⟩
    · exact Or.inl (Or.inl ⟨field, hfield, found, hlater, hname⟩)
  · cases hpair with
    | cons _ hlater => exact Or.inl (Or.inr ⟨field, first, second, hlater, hfirst, hsecond⟩)
    | cons_cons _ hlater =>
      have hmem := List.singleton_sublist.mp hlater
      exact Or.inr ⟨field, hfirst,
        Or.inr (Or.inl ⟨field, List.mem_cons_self, second, hmem, hsecond⟩)⟩

/-- Whether a member has a name that stands for no text, as half of a pair alone. -/
def Nameless (entries : List Member) : Prop :=
  ∃ entry ∈ entries, ∀ text, ¬ Spells entry.name text

theorem Nameless.of_cons {entries : List Member} (hnameless : Nameless (entry :: entries))
    {text : List Char} (hspells : Spells entry.name text) : Nameless entries := by
  obtain ⟨found, hfound, hnone⟩ := hnameless
  rcases List.mem_cons.mp hfound with rfl | hlater
  · exact absurd hspells (hnone text)
  · exact ⟨found, hlater, hnone⟩

theorem meets_failRepeated {α : Type} (field : Field) (characters : List Char)
    (result : α → List Char → Prop) : Meets (failRepeated field) characters result := by
  have hany : Meets peekSolid? characters fun _ _ ↦ True := fun _ _ _ _ ↦ trivial
  refine hany.bind fun found left _ ↦ ?_
  split
  · exact (yields_pass 1 _).bind_meets (meets_failHere _ _)
  · exact meets_failHere _ _

/-- A name that is read stands for a text and is read up to its closing quote, and if it is that of
a field, this is what is read. -/
theorem meets_name (hbody : Body entry.name) (rest : List Char) :
    Meets string (entry.name ++ '"' :: rest) fun name left ↦
      left = rest ∧ (∃ text, Spells entry.name text) ∧
        ∀ field : Field, Names entry field → Field.ofName? name = some field := by
  intro offset name cursor hok
  obtain ⟨hleft, hspells⟩ := hbody.meets_string rest offset name cursor hok
  refine ⟨hleft, hspells, fun field hname ↦ ?_⟩
  rw [((hname.yields_string rest).meets offset name cursor hok).1, Field.ofName?_name]

theorem meets_read {item : Item} (hspaced : item.Spaced) (hvalue : Value item.content)
    (hclosed : Closed rest) (field : Field) (layer : Layer) :
    Meets (field.read layer) (item.characters ++ rest) fun _ left ↦
      left = item.after ++ rest := by
  rw [field.read_eq, Item.characters, List.append_assoc, List.append_assoc]
  have hscan := field.meets_scan hvalue (hspaced.2.closed_append hclosed)
  exact (field.patient_scan.meets hspaced.1 hscan).bind fun _ _ hleft ↦ meets_pure hleft

/-- Members are not read if they give a field twice or if one of them has no name, whatever their
values are. -/
theorem meets_readMembers {entries : List Member} (hspaced : ∀ entry ∈ entries, entry.Spaced)
    (hnames : ∀ entry ∈ entries, Body entry.name)
    (hvalues : ∀ entry ∈ entries, Value entry.item.content) (hgap : Blanks gap) (rest : List Char)
    (first : Bool) (hblanks : Blanks blanks) (fuel : Nat) {given : List Field} (layer : Layer)
    (hrefused : Repeats given entries ∨ Nameless entries) :
    Meets (readMembers fuel first given layer)
      (blanks ++ listed first (entries.map Member.characters) (gap ++ '}' :: rest))
      fun _ _ ↦ False := by
  induction entries generalizing fuel first blanks given layer with
  | nil =>
    rcases hrefused with (⟨_, _, _, hnone, _⟩ | ⟨_, _, _, hnone, _⟩) | ⟨_, hnone, _⟩ <;> cases hnone
  | cons entry entries ih =>
    cases fuel with
    | zero => exact meets_failHere _ _
    | succ fuel =>
      obtain ⟨⟨hbefore, hcolon, hitem⟩, hlater⟩ := List.forall_mem_cons.mp hspaced
      obtain ⟨hname, hlaterNames⟩ := List.forall_mem_cons.mp hnames
      obtain ⟨hvalue, hlaterValues⟩ := List.forall_mem_cons.mp hvalues
      have hclosed := closed_listed (entries.map Member.characters) (hgap.closed_object rest)
      rw [readMembers, List.map_cons]
      refine (yields_moreMembers hbefore first hblanks _ _).bind_meets
        ((yields_pass 1 _).bind_meets ?_)
      refine (meets_name hname _).bind fun name left hleft ↦ ?_
      obtain ⟨rfl, ⟨text, hspells⟩, hfield⟩ := hleft
      split
      · rename_i hnone
        have hstill : Repeats given entries ∨ Nameless entries := by
          refine hrefused.imp (fun hrepeats ↦ ?_) fun hnameless ↦ hnameless.of_cons hspells
          rcases hrepeats.of_cons with hstill | ⟨field, hnamed, _⟩
          · exact hstill
          · cases hnone.symm.trans (hfield field hnamed)
        refine (yields_colon_gap hcolon _).bind_meets (meets_get fun offset ↦ ?_)
        refine (yields_skip_item hitem hvalue hclosed).bind_meets ?_
        exact ih hlater hlaterNames hlaterValues false hitem.2 fuel layer hstill
      · rename_i field hsome
        split
        · exact meets_failRepeated _ _ _
        · rename_i hnew
          have hstill : Repeats (field :: given) entries ∨ Nameless entries := by
            refine hrefused.imp (fun hrepeats ↦ ?_) fun hnameless ↦ hnameless.of_cons hspells
            rcases hrepeats.of_cons with hstill | ⟨found, hnamed, hagain⟩
            · exact hstill.cons_given field
            · cases hsome.symm.trans (hfield found hnamed)
              exact hagain.resolve_left (mt List.contains_iff_mem.mpr hnew)
          refine (yields_colon_gap hcolon _).bind_meets ?_
          refine (meets_read hitem hvalue hclosed field layer).bind fun changed left hleft ↦ ?_
          rw [hleft]
          exact ih hlater hlaterNames hlaterValues false hitem.2 fuel changed hstill

end Members

/-! ### Whole texts -/

section Texts

variable {entries others : List Member} {text second : String}

theorem patient_readLayer : Patient readLayer :=
  (patient_peekSolid?.bind _).bind _

/-- A text whose members give options gives these options. -/
theorem Admissible.parse_eq (hentries : Admissible entries) (htext : WritesObject entries text) :
    ∃ options, parse text = .ok options ∧
      (∀ field value, Gives entries field value → field.get options = value) ∧
      ∀ field : Field, (∀ entry ∈ entries, ¬ Names entry field) →
        field.get options = field.get {} := by
  obtain ⟨hspaced, lead, gap, trail, hlead, hgap, htrail, hcharacters⟩ := htext
  have hfuel := length_lt_listed (entries.map Member.characters)
    (List.append_ne_nil_of_right_ne_nil gap (List.cons_ne_nil '}' trail))
  rw [List.length_map] at hfuel
  obtain ⟨layer, hmembers, hgives, hkeeps⟩ := hentries.yields_readMembers hspaced hgap trail true
    (List.forall_mem_nil _) hfuel (List.forall_mem_nil _) {}
  have hclose := yields_closeObject (List.forall_mem_nil _) trail
  have hread : Yields readLayer
      ('{' :: listed true (entries.map Member.characters) (gap ++ '}' :: trail)) layer trail := by
    refine (yields_valueStart rfl _).bind ((yields_pass 1 _).bind (yields_get fun offset ↦ ?_))
    exact hmembers.bind (hclose.bind (yields_pure _ _))
  have hwhole := patient_readLayer.yields hlead hread
  rw [← hcharacters] at hwhole
  have hparse : Layer.parse text = .ok layer := readAll_eq hwhole htrail
  refine ⟨layer.atop {}, by rw [parse, hparse, Except.map], fun field value hvalue ↦ ?_,
    fun field hnone ↦ ?_⟩
  · rw [field.get_atop, hgives field value hvalue, Option.getD_some]
  · rw [field.get_atop, hkeeps field hnone]
    cases field <;> rfl

/-- A text that gives a field twice, or has a member without a name, is refused. -/
theorem parse_of_refused (htext : WritesObject entries text)
    (hnames : ∀ entry ∈ entries, Body entry.name)
    (hvalues : ∀ entry ∈ entries, Value entry.item.content)
    (hrefused : Repeats [] entries ∨ Nameless entries) :
    ∃ failure, parse text = .error failure := by
  obtain ⟨hspaced, lead, gap, trail, hlead, hgap, _, hcharacters⟩ := htext
  have hlayer : ∃ failure, Layer.parse text = .error failure := by
    refine readAll_error ?_
    rw [hcharacters]
    refine patient_readLayer.meets hlead ((yields_valueStart rfl _).bind_meets
      ((yields_pass 1 _).bind_meets (meets_get fun offset ↦ ?_)))
    exact (meets_readMembers hspaced hnames hvalues hgap trail true (List.forall_mem_nil _) _ {}
      hrefused).bind fun _ _ hnever ↦ hnever.elim
  obtain ⟨failure, hfailure⟩ := hlayer
  exact ⟨failure, by rw [parse, hfailure, Except.map]⟩

theorem Admissible.gives_or (hentries : Admissible entries) (field : Field) :
    (∃ value, Gives entries field value) ∨ ∀ entry ∈ entries, ¬ Names entry field := by
  by_cases hnamed : ∃ entry ∈ entries, Names entry field
  · obtain ⟨entry, hentry, hname⟩ := hnamed
    cases hentries.admits entry hentry with
    | @known found value hfound hvalue =>
      cases hname.unique hfound
      exact Or.inl ⟨value, entry, hentry, hname, hvalue⟩
    | @unknown name hother hnot =>
      exact absurd (hname.name_eq hother) (hnot field)
  · exact Or.inr fun entry hentry hname ↦ hnamed ⟨entry, hentry, hname⟩

/-- Only what the members give to the fields matters. -/
theorem Admissible.parse_congr (hentries : Admissible entries) (htext : WritesObject entries text)
    (hothers : Admissible others) (hsecond : WritesObject others second)
    (hsame : ∀ field value, Gives entries field value ↔ Gives others field value) :
    parse text = parse second := by
  obtain ⟨options, hoptions, hgives, hkeeps⟩ := hentries.parse_eq htext
  obtain ⟨changed, hchanged, hgivesToo, hkeepsToo⟩ := hothers.parse_eq hsecond
  have hequal : options = changed := by
    refine eq_of_get fun field ↦ ?_
    rcases hentries.gives_or field with ⟨value, hvalue⟩ | hnone
    · rw [hgives field value hvalue, hgivesToo field value ((hsame field value).mp hvalue)]
    · rcases hothers.gives_or field with ⟨value, hvalue⟩ | hnoneToo
      · obtain ⟨entry, hentry, hname, _⟩ := (hsame field value).mpr hvalue
        exact absurd hname (hnone entry hentry)
      · rw [hkeeps field hnone, hkeepsToo field hnoneToo]
  rw [hoptions, hchanged, hequal]

end Texts

/-! ### What is written of options -/

section Written

/-- An item of a list as it is written at a level. -/
def writtenItem (level : Nat) (content : Json) : Item :=
  ⟨indent level, written level content, []⟩

/-- A member of an object as it is written at a level. -/
def memberAt (level : Nat) (entry : String × Json) : Member :=
  ⟨indent level, entry.1.toList.flatMap escaped, [], ⟨[' '], written level entry.2, []⟩⟩

theorem writtenItems_append (level : Nat) (contents : List Json) (rest : List Char) :
    writtenItems level contents ++ rest =
      listed false ((contents.map (writtenItem level)).map Item.characters) rest := by
  induction contents with
  | nil => rfl
  | cons content contents ih =>
    rw [writtenItems_cons, List.map_cons, List.map_cons, listed, ← ih]
    simp [writtenItem, Item.characters]

theorem writtenMembers_append (level : Nat) (entries : List (String × Json)) (rest : List Char) :
    writtenMembers level entries ++ rest =
      listed false ((entries.map (memberAt level)).map Member.characters) rest := by
  induction entries with
  | nil => rfl
  | cons entry entries ih =>
    rw [writtenMembers_cons, List.map_cons, List.map_cons, listed, ← ih]
    simp [memberAt, Member.characters, Item.characters, writtenMember]

/-- A list is written with its items a level deeper. -/
theorem written_array (level : Nat) (contents : List Json) :
    ∃ gap, Blanks gap ∧ written level (.array contents) =
      '[' :: listed true ((contents.map (writtenItem (level + 1))).map Item.characters)
        (gap ++ [']']) := by
  cases contents with
  | nil => exact ⟨[], List.forall_mem_nil _, written_array_nil level⟩
  | cons content contents =>
    refine ⟨indent level, isBlank_of_mem_indent level, ?_⟩
    rw [written_array_cons, writtenItems_append, List.map_cons, List.map_cons, listed]
    simp [writtenItem, Item.characters]

/-- An object is written with its members a level deeper. -/
theorem written_object (level : Nat) (entries : List (String × Json)) :
    ∃ gap, Blanks gap ∧ written level (.object entries) =
      '{' :: listed true ((entries.map (memberAt (level + 1))).map Member.characters)
        (gap ++ ['}']) := by
  cases entries with
  | nil => exact ⟨[], List.forall_mem_nil _, written_object_nil level⟩
  | cons entry entries =>
    refine ⟨indent level, isBlank_of_mem_indent level, ?_⟩
    rw [written_object_cons, writtenMembers_append, List.map_cons, List.map_cons, listed]
    simp [memberAt, Member.characters, Item.characters, writtenMember]

theorem quotes_written (level : Nat) (text : String) : Quotes (written level (.text text)) text :=
  ⟨_, toList_quoted text, spells_escaped text.toList⟩

theorem writesTexts_written (level : Nat) (texts : List String) :
    WritesTexts (written level (.array (texts.map .text))) texts := by
  obtain ⟨gap, hgap, hwritten⟩ := written_array level (texts.map .text)
  refine ⟨_, gap, hgap, ?_, ?_, hwritten⟩
  · exact List.forall_mem_map.mpr fun content _ ↦
      ⟨isBlank_of_mem_indent _, List.forall_mem_nil _⟩
  · rw [List.map_map, List.forall₂_map_left_iff, List.forall₂_same]
    intro text _
    dsimp only [Function.comp_apply, writtenItem]
    exact quotes_written (level + 1) text

namespace Field

/-- The value of a field as it is written. -/
def json (options : Options) : Field → Json
  | .maxNodes => .whole options.maxNodes
  | .includeLibraries => .boolean options.includeLibraries
  | .focusComponent => .text options.focusComponent
  | .importDepth => .whole options.importDepth
  | .ignores => .array (options.ignores.map .text)

theorem writes_written {options : Options} (hnodes : options.maxNodes ≤ largestNatural)
    (hdepth : options.importDepth ≤ largestNatural) (level : Nat) (field : Field) :
    field.Writes (written level (field.json options)) (field.get options) := by
  cases field with
  | maxNodes => exact ⟨hnodes, written_whole level options.maxNodes⟩
  | includeLibraries =>
    show WritesBoolean (written level (.boolean options.includeLibraries)) options.includeLibraries
    cases options.includeLibraries <;> rw [WritesBoolean, written, printAt] <;> rfl
  | focusComponent => exact quotes_written level options.focusComponent
  | importDepth => exact ⟨hdepth, written_whole level options.importDepth⟩
  | ignores => exact writesTexts_written level options.ignores

end Field

/-- What is written of options gives them back. Assumes: the numbers have at most sixty-four
bits. -/
theorem parse_print {options : Options} (hnodes : options.maxNodes ≤ largestNatural)
    (hdepth : options.importDepth ≤ largestNatural) : parse options.print = .ok options := by
  obtain ⟨gap, hgap, hwritten⟩ :=
    written_object 0 (Field.all.map fun field ↦ (field.name, field.json options))
  rw [List.map_map] at hwritten
  have hnames (field : Field) : Names (memberAt 1 (field.name, field.json options)) field :=
    spells_escaped field.name.toList
  have hvalues (field : Field) := field.writes_written hnodes hdepth 1
  have htext : WritesObject
      (Field.all.map (memberAt 1 ∘ fun field ↦ (field.name, field.json options)))
      options.print := by
    refine ⟨List.forall_mem_map.mpr fun field _ ↦ ?_, [], gap, [], List.forall_mem_nil _, hgap,
      List.forall_mem_nil _, hwritten⟩
    exact ⟨isBlank_of_mem_indent 1, List.forall_mem_nil _, List.forall_mem_singleton.mpr rfl,
      List.forall_mem_nil _⟩
  have hentries : Admissible
      (Field.all.map (memberAt 1 ∘ fun field ↦ (field.name, field.json options))) := by
    refine ⟨List.forall_mem_map.mpr fun field _ ↦ .known (hnames field) (hvalues field), ?_⟩
    rw [List.pairwise_map]
    have hdifferent : Field.all.Pairwise (· ≠ ·) := by decide
    refine hdifferent.imp fun hne field hfirst hsecond ↦ hne ?_
    exact ((hnames _).unique hfirst).trans ((hnames _).unique hsecond).symm
  obtain ⟨found, hfound, hgives, _⟩ := hentries.parse_eq htext
  have hsame : found = options := by
    refine eq_of_get fun field ↦ hgives field _ ?_
    have hmem : field ∈ Field.all := by cases field <;> decide
    exact ⟨_, List.mem_map_of_mem hmem, hnames field, hvalues field⟩
  rw [hfound, hsame]

end Written

/-- Options are read field by field and nothing is lost. An object whose members give options is
read, in whatever order they stand, however they are spelled and spaced, and whatever other members
there are as long as their names stand for texts: each field has the value that its member gives, or
its default. So two such objects that give the fields the same values are read as the same options.
An object that gives a field twice is refused, whatever values it has, and so is one that has a
member whose name stands for no text, field or not. And what is written of options is read as these
options, as long as their numbers have at most sixty-four bits. -/
theorem parse_field_by_field :
    (∀ entries text, WritesObject entries text → Admissible entries →
      ∃ options, parse text = .ok options ∧
        (∀ field value, Gives entries field value → field.get options = value) ∧
        ∀ field : Field, (∀ entry ∈ entries, ¬ Names entry field) →
          field.get options = field.get {}) ∧
    (∀ entries text others second, WritesObject entries text → Admissible entries →
      WritesObject others second → Admissible others →
      (∀ field value, Gives entries field value ↔ Gives others field value) →
        parse text = parse second) ∧
    (∀ entries text, WritesObject entries text →
      (∀ entry ∈ entries, Body entry.name ∧ Value entry.item.content) →
      ∀ (field : Field) (first second : Member), [first, second].Sublist entries →
        Names first field → Names second field → ∃ failure, parse text = .error failure) ∧
    (∀ entries text, WritesObject entries text →
      (∀ entry ∈ entries, Body entry.name ∧ Value entry.item.content) →
      ∀ entry ∈ entries, (∀ name, ¬ Spells entry.name name) →
        ∃ failure, parse text = .error failure) ∧
    ∀ options : Options, options.maxNodes < 2 ^ 64 → options.importDepth < 2 ^ 64 →
      parse options.print = .ok options := by
  refine ⟨?_, ?_, ?_, ?_, ?_⟩
  · intro entries text htext hentries
    exact hentries.parse_eq htext
  · intro entries text others second htext hentries hsecond hothers hsame
    exact hentries.parse_congr htext hothers hsecond hsame
  · intro entries text htext hvalid field first second hpair hfirst hsecond
    exact parse_of_refused htext (fun entry hentry ↦ (hvalid entry hentry).1)
      (fun entry hentry ↦ (hvalid entry hentry).2)
      (Or.inl (Or.inr ⟨field, first, second, hpair, hfirst, hsecond⟩))
  · intro entries text htext hvalid entry hentry hnone
    exact parse_of_refused htext (fun entry hentry ↦ (hvalid entry hentry).1)
      (fun entry hentry ↦ (hvalid entry hentry).2) (Or.inr ⟨entry, hentry, hnone⟩)
  · intro options hnodes hdepth
    exact parse_print (Nat.le_of_lt_succ hnodes) (Nat.le_of_lt_succ hdepth)

/-- A value under a name that is half of a pair. -/
def halfMember : Member :=
  ⟨[], "\\ud800".toList, [], ⟨[' '], "null".toList, []⟩⟩

theorem body_halfMember : Body halfMember.name :=
  @Body.number ['d', '8', '0', '0'] [] 0xD800 rfl .nil

theorem not_spells_halfMember (text : List Char) : ¬ Spells halfMember.name text :=
  @not_spells_half ['d', '8', '0', '0'] 0xD800 rfl (by decide) text

/-- An object with a member that is no field's, valid as it is, and no options: names are read
before they are passed over. -/
theorem parse_halfMember :
    WritesObject [halfMember] "\x7b\"\\ud800\": null\x7d" ∧ Body halfMember.name ∧
      Value halfMember.item.content ∧ (∀ field, ¬ Names halfMember field) ∧
      ∃ failure, parse "\x7b\"\\ud800\": null\x7d" = .error failure := by
  have htext : WritesObject [halfMember] "\x7b\"\\ud800\": null\x7d" :=
    ⟨by decide, [], [], [], by decide, by decide, by decide, by decide⟩
  refine ⟨htext, body_halfMember, .null, fun field ↦ not_spells_halfMember _, ?_⟩
  exact parse_of_refused htext (List.forall_mem_singleton.mpr body_halfMember)
    (List.forall_mem_singleton.mpr .null)
    (Or.inr ⟨halfMember, List.mem_cons_self, not_spells_halfMember⟩)

/-- A list under a name of no field, with half of a pair in it. -/
def remarkMember : Member :=
  ⟨[' '], ['x'], [' '], ⟨[' '], "[1e5,\x7b\"\\ud800\":null\x7d ]".toList, []⟩⟩

/-- A depth, under a name that is spelled with an escape. -/
def depthMember : Member :=
  ⟨['\n'], "i\\u006dportDepth".toList, [], ⟨[], ['7'], [' ']⟩⟩

/-- A list of one pattern. -/
def ignoresMember : Member :=
  ⟨[], "ignores".toList, [], ⟨[' '], "[\"a\" ]".toList, []⟩⟩

theorem value_remarkMember : Value remarkMember.item.content := by
  have hnumber : Value "1e5".toList :=
    .number (@Number.mk [] ['1'] [] ['e', '5'] (Or.inl rfl) (.digits (by decide) (by decide)) .none
      (@Exponent.mark 'e' [] ['5'] (Or.inl rfl) (Or.inl rfl) (by decide)))
  have hhalf : Body "\\ud800".toList := @Body.number ['d', '8', '0', '0'] [] 0xD800 rfl .nil
  have hobject : Value "\x7b\"\\ud800\":null\x7d".toList :=
    @Value.object [] [⟨[], "\\ud800".toList, [], ⟨[], "null".toList, []⟩⟩] (by decide) (by decide)
      (List.forall_mem_singleton.mpr hhalf) (List.forall_mem_singleton.mpr .null)
  exact @Value.list [] [⟨[], "1e5".toList, []⟩, ⟨[], "\x7b\"\\ud800\":null\x7d".toList, [' ']⟩]
    (by decide) (by decide)
    (List.forall_mem_cons.mpr ⟨hnumber, List.forall_mem_singleton.mpr hobject⟩)

theorem names_depthMember : Names depthMember .importDepth :=
  .plain (by decide) (by decide) (by decide)
    (@Spells.number ['0', '0', '6', 'd'] _ _ 0x6D rfl (Or.inl (by decide))
      (spells_escaped "portDepth".toList))

theorem writes_depthMember :
    Field.Writes .importDepth depthMember.item.content (show Nat from 7) :=
  ⟨by decide, by decide⟩

theorem names_ignoresMember : Names ignoresMember .ignores :=
  spells_escaped "ignores".toList

theorem writes_ignoresMember : Field.Writes .ignores ignoresMember.item.content ["a"] :=
  ⟨[⟨[], "\"a\"".toList, [' ']⟩], [], by decide, by decide,
    .cons ⟨['a'], by decide, spells_escaped ['a']⟩ .nil, by decide⟩

theorem spells_remarkMember : Spells remarkMember.name "x".toList :=
  spells_escaped "x".toList

theorem name_ne_remark (field : Field) : field.name ≠ "x" := by
  cases field <;> decide

theorem not_names_remarkMember (field : Field) : ¬ Names remarkMember field :=
  fun hnames ↦ name_ne_remark field (hnames.name_eq spells_remarkMember)

theorem admissible_remarkMember : Admissible [remarkMember, depthMember, ignoresMember] := by
  constructor
  · rw [List.forall_mem_cons, List.forall_mem_cons, List.forall_mem_singleton]
    exact ⟨.unknown spells_remarkMember name_ne_remark value_remarkMember,
      .known names_depthMember writes_depthMember, .known names_ignoresMember writes_ignoresMember⟩
  · rw [List.pairwise_cons, List.pairwise_pair]
    refine ⟨fun _ _ field hnames ↦ absurd hnames (not_names_remarkMember field), ?_⟩
    intro field hdepth hignores
    cases names_depthMember.unique hdepth
    cases names_ignoresMember.unique hignores

/-- A depth is read from between other members, a depth that is given twice is refused, and the
largest number of nodes is read back. -/
theorem parse_field_by_field_remark :
    (∃ options, parse ("\x7b \"x\" : [1e5,\x7b\"\\ud800\":null\x7d ],\n" ++
        "\"i\\u006dportDepth\":7 ,\"ignores\": [\"a\" ]\x7d") = .ok options ∧
      options.importDepth = 7 ∧ options.ignores = ["a"] ∧ options.maxNodes = 150) ∧
    (∃ failure, parse "\x7b\n\"i\\u006dportDepth\":7 ,\n\"i\\u006dportDepth\":7 \x7d" =
      .error failure) ∧
    parse ({ maxNodes := 2 ^ 64 - 1 } : Options).print = .ok { maxNodes := 2 ^ 64 - 1 } := by
  obtain ⟨hread, _, hrefused, _, hback⟩ := parse_field_by_field
  refine ⟨?_, ?_, hback _ (by decide) (by decide)⟩
  · have htext : WritesObject [remarkMember, depthMember, ignoresMember]
        ("\x7b \"x\" : [1e5,\x7b\"\\ud800\":null\x7d ],\n" ++
          "\"i\\u006dportDepth\":7 ,\"ignores\": [\"a\" ]\x7d") :=
      ⟨by decide, [], [], [], by decide, by decide, by decide, by decide⟩
    obtain ⟨options, hoptions, hgives, hkeeps⟩ := hread _ _ htext admissible_remarkMember
    refine ⟨options, hoptions, ?_, ?_, ?_⟩
    · exact hgives .importDepth _ ⟨depthMember, by simp, names_depthMember, writes_depthMember⟩
    · exact hgives .ignores _ ⟨ignoresMember, by simp, names_ignoresMember, writes_ignoresMember⟩
    · refine hkeeps .maxNodes ?_
      rw [List.forall_mem_cons, List.forall_mem_cons, List.forall_mem_singleton]
      refine ⟨not_names_remarkMember _, fun hdepth ↦ ?_, fun hignores ↦ ?_⟩
      · cases names_depthMember.unique hdepth
      · cases names_ignoresMember.unique hignores
  · have htext : WritesObject [depthMember, depthMember]
        "\x7b\n\"i\\u006dportDepth\":7 ,\n\"i\\u006dportDepth\":7 \x7d" :=
      ⟨by decide, [], [], [], by decide, by decide, by decide, by decide⟩
    have hvalue : Value depthMember.item.content :=
      .number (@Number.mk [] ['7'] [] [] (Or.inl rfl) (.digits (by decide) (by decide)) .none .none)
    refine hrefused _ _ htext ?_ .importDepth depthMember depthMember (List.Sublist.refl _)
      names_depthMember names_depthMember
    rw [List.forall_mem_cons, List.forall_mem_singleton]
    exact ⟨⟨names_depthMember.body, hvalue⟩, names_depthMember.body, hvalue⟩

end ComponentGraph.Options
