import ComponentGraph.Command.Report
import ComponentGraph.Node.Decode
import ComponentGraph.Proofs.Scanning

/-!
Nodes that are written as JSON can be read back.

The values that nodes are written as are texts, natural numbers of sixty-four bits, and lists and
objects of such values, where no object has two members of one name (`Plain`). By induction over
such a value the reader gives it back and stops right behind it. The fuel of the reader is never
used up, since every round passes a character of the text. Reading a node from the value then
undoes what writing it did, field by field.
-/

set_option autoImplicit false
set_option relaxedAutoImplicit false

namespace ComponentGraph

namespace Json

/-! ### Values -/

/-- Texts, natural numbers of sixty-four bits, and lists and objects of such values. -/
inductive Plain : Json → Prop where
  | text (content : String) : Plain (.text content)
  | whole {number : Nat} (hrange : number ≤ largestNatural) : Plain (.whole number)
  | array {entries : List Json} (hentries : ∀ entry ∈ entries, Plain entry) :
      Plain (.array entries)
  | object {entries : List (String × Json)} (hnames : (entries.map Prod.fst).Nodup)
      (hentries : ∀ entry ∈ entries, Plain entry.2) : Plain (.object entries)

/-- The characters of a value at a level. -/
def written (level : Nat) (content : Json) : List Char :=
  (printAt level content).toList

/-- The blanks of a new line at a level. -/
def indent (level : Nat) : List Char :=
  '\n' :: List.replicate (2 * level) ' '

theorem toList_newline (level : Nat) : (newline level).toList = indent level := by
  simp only [newline, String.toList_append, String.toList_ofList]
  rfl

theorem length_indent (level : Nat) : (indent level).length = 2 * level + 1 := by
  rw [indent, List.length_cons, List.length_replicate]

theorem isBlank_of_mem_indent (level : Nat) : ∀ character ∈ indent level,
    isBlank character = true := by
  intro character hcharacter
  rcases List.mem_cons.mp hcharacter with rfl | hblank
  · rfl
  · rw [(List.mem_replicate.mp hblank).2]
    rfl

theorem closed_of_cons {first : Char} (hfirst : isDigit first = false ∧ first ≠ '.' ∧
    first ≠ 'e' ∧ first ≠ 'E') (characters : List Char) : Closed (first :: characters) :=
  fun _ hsame ↦ Option.some.inj hsame ▸ hfirst

theorem Starts.append {characters : List Char} (hstarts : Starts characters)
    (more : List Char) : Starts (characters ++ more) := by
  obtain ⟨first, rest, rfl, hfirst⟩ := hstarts
  exact ⟨first, rest ++ more, rfl, hfirst⟩

/-- A value that the reader gives back wherever it is written. -/
structure ReadBack (content : Json) : Prop where
  starts : ∀ level, Starts (written level content)
  yields : ∀ level fuel blanks characters, (written level content).length ≤ fuel →
    (∀ character ∈ blanks, isBlank character = true) → Closed characters →
    Yields (value fuel) (blanks ++ (written level content ++ characters)) content characters

/-! ### Texts and numbers -/

theorem toList_quoted (text : String) :
    (quoted text).toList = '"' :: (text.toList.flatMap escaped ++ ['"']) := by
  simp only [quoted, String.toList_append, String.toList_ofList]
  rfl

theorem yields_value_of_scalar {fuel : Nat} {blanks rest characters : List Char} {first : Char}
    {content : Json} (hblanks : ∀ character ∈ blanks, isBlank character = true)
    (hsolid : isBlank first = false) (hlist : first ≠ '[') (hobject : first ≠ '{')
    (hscalar : Yields scalar? (first :: rest) (some content) characters) :
    Yields (value (fuel + 1)) (blanks ++ first :: rest) content characters := by
  rw [value]
  refine (yields_peekSolid?_cons hblanks rest hsolid).bind ?_
  split
  · rename_i hnone
    cases hnone
  · rename_i hsame
    exact absurd (Option.some.inj hsame) hlist
  · rename_i hsame
    exact absurd (Option.some.inj hsame) hobject
  · exact hscalar.bind (yields_pure _ _)

theorem readBack_text (text : String) : ReadBack (.text text) where
  starts := fun level ↦ ⟨_, _, toList_quoted text, rfl, by decide⟩
  yields := by
    intro level fuel blanks characters hfuel hblanks _
    have hwritten : written level (.text text) = _ := toList_quoted text
    rw [hwritten] at hfuel ⊢
    cases fuel with
    | zero => cases hfuel
    | succ fuel =>
      rw [List.cons_append, List.append_assoc]
      refine yields_value_of_scalar hblanks rfl (by decide) (by decide) ?_
      refine (yields_peek? _).bind ((yields_pass 1 _).bind ?_)
      exact (yields_string text characters).bind (yields_pure _ _)

theorem written_whole (level number : Nat) :
    written level (.whole number) = Nat.toDigits 10 number := by
  rw [written, printAt]
  show (toString number).toList = _
  rw [Nat.toString_eq_ofList_toDigits, String.toList_ofList]

theorem exists_digit_cons (number : Nat) :
    ∃ digit rest, Nat.toDigits 10 number = digit :: rest ∧ isDigit digit = true := by
  have hsome : Nat.toDigits 10 number ≠ [] := Nat.toDigits_ne_nil
  obtain ⟨digit, rest, hdigits⟩ := List.exists_cons_of_ne_nil hsome
  exact ⟨digit, rest, hdigits, isDigit_of_mem_toDigits (hdigits ▸ List.mem_cons_self)⟩

/-- A character that is no digit is different from one that is. -/
theorem ne_of_isDigit {digit other : Char} (hdigit : isDigit digit = true)
    (hother : isDigit other = false) : digit ≠ other := by
  rintro rfl
  exact Bool.false_ne_true (hother.symm.trans hdigit)

theorem isBlank_of_isDigit {digit : Char} (hdigit : isDigit digit = true) :
    isBlank digit = false := by
  have hother {other : Char} (hother : isDigit other = false) : (digit == other) = false :=
    beq_false_of_ne (ne_of_isDigit hdigit hother)
  rw [isBlank, hother rfl, hother rfl, hother rfl, hother rfl]
  rfl

theorem yields_scalar?_of_digit {digit : Char} {rest characters : List Char} {content : Json}
    (hdigit : isDigit digit = true)
    (hnumber : Yields (number false) (digit :: rest) content characters) :
    Yields scalar? (digit :: rest) (some content) characters := by
  have hno {other : Char} (hother : isDigit other = false)
      (hsame : (digit :: rest).head? = some other) : False :=
    ne_of_isDigit hdigit hother (Option.some.inj hsame)
  refine (yields_peek? _).bind ?_
  split
  · exact (hno rfl ‹_›).elim
  · exact (hno rfl ‹_›).elim
  · exact (hno rfl ‹_›).elim
  · exact (hno rfl ‹_›).elim
  · exact (hno rfl ‹_›).elim
  · rename_i hsame
    cases hsame
    rw [if_pos hdigit]
    exact hnumber.bind (yields_pure _ _)
  · rename_i hnone
    cases hnone

theorem readBack_whole {number : Nat} (hrange : number ≤ largestNatural) :
    ReadBack (.whole number) where
  starts := by
    intro level
    obtain ⟨digit, rest, hdigits, hdigit⟩ := exists_digit_cons number
    exact ⟨digit, rest, (written_whole level number).trans hdigits, isBlank_of_isDigit hdigit,
      ne_of_isDigit hdigit rfl⟩
  yields := by
    intro level fuel blanks characters hfuel hblanks hclosed
    have hnumber := yields_number hrange hclosed
    obtain ⟨digit, rest, hdigits, hdigit⟩ := exists_digit_cons number
    rw [hdigits] at hnumber
    rw [written_whole, hdigits] at hfuel ⊢
    cases fuel with
    | zero => cases hfuel
    | succ fuel =>
      exact yields_value_of_scalar hblanks (isBlank_of_isDigit hdigit) (ne_of_isDigit hdigit rfl)
        (ne_of_isDigit hdigit rfl) (yields_scalar?_of_digit hdigit hnumber)

/-! ### Lists -/

/-- The characters of the items after the first. -/
def writtenItems (level : Nat) (entries : List Json) : List Char :=
  (printItems level entries).toList

theorem writtenItems_cons (level : Nat) (entry : Json) (entries : List Json) :
    writtenItems level (entry :: entries) =
      ',' :: (indent level ++ (written level entry ++ writtenItems level entries)) := by
  simp only [writtenItems, printItems, String.toList_append, toList_newline, List.append_assoc]
  rfl

theorem written_array_cons (level : Nat) (entry : Json) (entries : List Json) :
    written level (.array (entry :: entries)) =
      '[' :: (indent (level + 1) ++ (written (level + 1) entry ++
        (writtenItems (level + 1) entries ++ (indent level ++ [']'])))) := by
  simp only [written, printAt, String.toList_append, toList_newline, List.append_assoc]
  rfl

theorem written_array_nil (level : Nat) : written level (.array []) = ['[', ']'] := by
  rw [written, printAt]
  rfl

theorem getLast?_written_array (level : Nat) (entries : List Json) :
    (written level (.array entries)).getLast? = some ']' := by
  cases entries with
  | nil =>
    rw [written_array_nil]
    rfl
  | cons entry entries =>
    rw [written_array_cons, ← List.append_assoc, ← List.append_assoc, ← List.append_assoc,
      ← List.cons_append, List.getLast?_concat]

theorem closed_writtenItems (level outer : Nat) (entries : List Json) (characters : List Char) :
    Closed (writtenItems level entries ++ (indent outer ++ characters)) := by
  cases entries with
  | nil => exact closed_of_cons (by decide) _
  | cons entry entries =>
    rw [writtenItems_cons]
    exact closed_of_cons (by decide) _

theorem yields_items {entries : List Json} (hentries : ∀ entry ∈ entries, ReadBack entry)
    (level outer : Nat) {fuel : Nat} (hfuel : (writtenItems level entries).length < fuel)
    (characters : List Char) :
    Yields (items fuel false)
      (writtenItems level entries ++ (indent outer ++ ']' :: characters)) entries
      (']' :: characters) := by
  induction entries generalizing fuel with
  | nil =>
    cases fuel with
    | zero => cases hfuel
    | succ fuel =>
      rw [items]
      exact (yields_moreItems_end (isBlank_of_mem_indent outer) characters false).bind
        (yields_pure _ _)
  | cons entry entries ih =>
    cases fuel with
    | zero => cases hfuel
    | succ fuel =>
      obtain ⟨hentry, hlater⟩ := List.forall_mem_cons.mp hentries
      rw [writtenItems_cons] at hfuel ⊢
      simp only [List.length_cons, List.length_append] at hfuel
      simp only [List.cons_append, List.append_assoc]
      rw [items]
      refine (yields_moreItems_next (isBlank_of_mem_indent level)
        ((hentry.starts level).append _)).bind ?_
      have hvalue := hentry.yields level fuel [] _ (by omega) (List.forall_mem_nil _)
        (closed_writtenItems level outer entries (']' :: characters))
      exact hvalue.bind ((ih hlater (by omega)).bind (yields_pure _ _))

theorem yields_value_of_items {fuel : Nat} {blanks rest characters : List Char}
    {entries : List Json} (hblanks : ∀ character ∈ blanks, isBlank character = true)
    (hitems : Yields (items fuel true) rest entries (']' :: characters)) :
    Yields (value (fuel + 1)) (blanks ++ '[' :: rest) (.array entries) characters := by
  rw [value]
  refine (yields_peekSolid?_cons hblanks rest rfl).bind ((yields_pass 1 _).bind ?_)
  have hclose := yields_closeList (List.forall_mem_nil _) characters
  exact hitems.bind (hclose.bind (yields_pure _ _))

theorem readBack_array {entries : List Json} (hentries : ∀ entry ∈ entries, ReadBack entry) :
    ReadBack (.array entries) where
  starts := by
    intro level
    cases entries with
    | nil => exact ⟨'[', _, written_array_nil level, rfl, by decide⟩
    | cons entry entries => exact ⟨'[', _, written_array_cons level entry entries, rfl, by decide⟩
  yields := by
    intro level fuel blanks characters hfuel hblanks _
    cases entries with
    | nil =>
      rw [written_array_nil] at hfuel ⊢
      obtain ⟨fuel, rfl⟩ : ∃ more, fuel = more + 2 := Nat.exists_eq_add_of_le' hfuel
      refine yields_value_of_items hblanks ?_
      rw [items]
      exact (yields_moreItems_end (List.forall_mem_nil _) characters true).bind (yields_pure _ _)
    | cons entry entries =>
      obtain ⟨hentry, hlater⟩ := List.forall_mem_cons.mp hentries
      rw [written_array_cons] at hfuel ⊢
      simp only [List.length_cons, List.length_append, length_indent] at hfuel
      simp only [List.cons_append, List.append_assoc]
      obtain ⟨fuel, rfl⟩ : ∃ more, fuel = more + 2 := Nat.exists_eq_add_of_le' (by omega)
      refine yields_value_of_items hblanks ?_
      rw [items]
      refine (yields_moreItems_first (isBlank_of_mem_indent _)
        ((hentry.starts (level + 1)).append _)).bind ?_
      have hvalue := hentry.yields (level + 1) fuel [] _ (by omega) (List.forall_mem_nil _)
        (closed_writtenItems (level + 1) level entries (']' :: characters))
      have hmore : (writtenItems (level + 1) entries).length < fuel := by omega
      have hrest := yields_items hlater (level + 1) level hmore characters
      exact hvalue.bind (hrest.bind (yields_pure _ _))

/-! ### Objects -/

/-- The characters of the members after the first. -/
def writtenMembers (level : Nat) (entries : List (String × Json)) : List Char :=
  (printMembers level entries).toList

/-- The characters of one member. -/
def writtenMember (level : Nat) (entry : String × Json) : List Char :=
  '"' :: (entry.1.toList.flatMap escaped ++ '"' :: ':' :: ' ' :: written level entry.2)

theorem writtenMembers_cons (level : Nat) (entry : String × Json)
    (entries : List (String × Json)) :
    writtenMembers level (entry :: entries) =
      ',' :: (indent level ++ (writtenMember level entry ++ writtenMembers level entries)) := by
  obtain ⟨name, content⟩ := entry
  simp only [writtenMembers, printMembers, String.toList_append, toList_newline, toList_quoted,
    List.append_assoc, writtenMember, List.cons_append]
  rfl

theorem written_object_cons (level : Nat) (entry : String × Json)
    (entries : List (String × Json)) :
    written level (.object (entry :: entries)) =
      '{' :: (indent (level + 1) ++ (writtenMember (level + 1) entry ++
        (writtenMembers (level + 1) entries ++ (indent level ++ ['}'])))) := by
  obtain ⟨name, content⟩ := entry
  simp only [written, printAt, String.toList_append, toList_newline, toList_quoted,
    List.append_assoc, writtenMember, List.cons_append]
  rfl

theorem written_object_nil (level : Nat) : written level (.object []) = ['{', '}'] := by
  rw [written, printAt]
  rfl

theorem closed_writtenMembers (level outer : Nat) (entries : List (String × Json))
    (characters : List Char) :
    Closed (writtenMembers level entries ++ (indent outer ++ characters)) := by
  cases entries with
  | nil => exact closed_of_cons (by decide) _
  | cons entry entries =>
    rw [writtenMembers_cons]
    exact closed_of_cons (by decide) _

theorem setMember_of_not_mem {name : String} (content : Json) {entries : List (String × Json)}
    (hname : name ∉ entries.map Prod.fst) :
    setMember name content entries = entries ++ [(name, content)] := by
  induction entries with
  | nil => rfl
  | cons entry entries ih =>
    obtain ⟨other, old⟩ := entry
    rw [List.map_cons, List.mem_cons, not_or] at hname
    rw [setMember, if_neg (Ne.symm hname.1), ih hname.2]
    rfl

/-- The reader of one member and all that follow. -/
def membersFrom (fuel : Nat) (before : List (String × Json)) : Scan (List (String × Json)) := do
  pass 1
  let name ← string
  colon
  let found ← value fuel
  members fuel false (setMember name found before)

theorem yields_membersFrom {fuel level : Nat} {entry : String × Json}
    {before entries : List (String × Json)} {rest characters : List Char}
    (hentry : ReadBack entry.2) (hfuel : (written level entry.2).length ≤ fuel)
    (hclosed : Closed rest) (hname : entry.1 ∉ before.map Prod.fst)
    (hrest : Yields (members fuel false (before ++ [entry])) rest entries characters) :
    Yields (membersFrom fuel before) (writtenMember level entry ++ rest) entries characters := by
  have hblank : ∀ character ∈ [' '], isBlank character = true :=
    List.forall_mem_singleton.mpr rfl
  simp only [writtenMember, List.cons_append, List.append_assoc]
  refine (yields_pass 1 _).bind ((yields_string entry.1 _).bind ((yields_colon _).bind ?_))
  refine (hentry.yields level fuel [' '] rest hfuel hblank hclosed).bind ?_
  rwa [setMember_of_not_mem entry.2 hname]

theorem yields_members {entries : List (String × Json)}
    (hentries : ∀ entry ∈ entries, ReadBack entry.2) {before : List (String × Json)}
    (hnames : ((before ++ entries).map Prod.fst).Nodup) (level outer : Nat) {fuel : Nat}
    (hfuel : (writtenMembers level entries).length < fuel) (characters : List Char) :
    Yields (members fuel false before)
      (writtenMembers level entries ++ (indent outer ++ '}' :: characters)) (before ++ entries)
      ('}' :: characters) := by
  induction entries generalizing fuel before with
  | nil =>
    cases fuel with
    | zero => cases hfuel
    | succ fuel =>
      rw [members, List.append_nil]
      exact (yields_moreMembers_end (isBlank_of_mem_indent outer) characters false).bind
        (yields_pure _ _)
  | cons entry entries ih =>
    cases fuel with
    | zero => cases hfuel
    | succ fuel =>
      obtain ⟨hentry, hlater⟩ := List.forall_mem_cons.mp hentries
      have hname : entry.1 ∉ before.map Prod.fst := by
        rw [List.map_append, List.map_cons] at hnames
        exact fun hbefore ↦ (List.nodup_append.mp hnames).2.2 _ hbefore _ List.mem_cons_self rfl
      have hmore : ((before ++ [entry] ++ entries).map Prod.fst).Nodup := by
        rwa [List.append_assoc]
      rw [writtenMembers_cons] at hfuel ⊢
      simp only [List.length_cons, List.length_append, writtenMember] at hfuel
      simp only [List.cons_append, List.append_assoc]
      have hrest := ih hlater hmore (show (writtenMembers level entries).length < fuel by omega)
      rw [List.append_assoc] at hrest
      rw [members]
      have hclosed := closed_writtenMembers level outer entries ('}' :: characters)
      refine (yields_moreMembers_next (isBlank_of_mem_indent level) _).bind ?_
      exact yields_membersFrom hentry (show _ ≤ fuel by omega) hclosed hname hrest

theorem yields_value_of_members {fuel : Nat} {blanks rest characters : List Char}
    {entries : List (String × Json)} (hblanks : ∀ character ∈ blanks, isBlank character = true)
    (hmembers : Yields (members fuel true []) rest entries ('}' :: characters)) :
    Yields (value (fuel + 1)) (blanks ++ '{' :: rest) (.object entries) characters := by
  rw [value]
  refine (yields_peekSolid?_cons hblanks rest rfl).bind ((yields_pass 1 _).bind ?_)
  have hclose := yields_closeObject (List.forall_mem_nil _) characters
  exact hmembers.bind (hclose.bind (yields_pure _ _))

theorem readBack_object {entries : List (String × Json)}
    (hnames : (entries.map Prod.fst).Nodup) (hentries : ∀ entry ∈ entries, ReadBack entry.2) :
    ReadBack (.object entries) where
  starts := by
    intro level
    cases entries with
    | nil => exact ⟨'{', _, written_object_nil level, rfl, by decide⟩
    | cons entry entries => exact ⟨'{', _, written_object_cons level entry entries, rfl, by decide⟩
  yields := by
    intro level fuel blanks characters hfuel hblanks _
    cases entries with
    | nil =>
      rw [written_object_nil] at hfuel ⊢
      obtain ⟨fuel, rfl⟩ : ∃ more, fuel = more + 2 := Nat.exists_eq_add_of_le' hfuel
      refine yields_value_of_members hblanks ?_
      rw [members]
      exact (yields_moreMembers_end (List.forall_mem_nil _) characters true).bind (yields_pure _ _)
    | cons entry entries =>
      obtain ⟨hentry, hlater⟩ := List.forall_mem_cons.mp hentries
      rw [written_object_cons] at hfuel ⊢
      simp only [List.length_cons, List.length_append, length_indent, writtenMember] at hfuel
      simp only [List.cons_append, List.append_assoc]
      obtain ⟨fuel, rfl⟩ : ∃ more, fuel = more + 2 := Nat.exists_eq_add_of_le' (by omega)
      refine yields_value_of_members hblanks ?_
      have hmore : (writtenMembers (level + 1) entries).length < fuel := by omega
      have hbefore : (([entry] ++ entries).map Prod.fst).Nodup := hnames
      have hrest := yields_members hlater hbefore (level + 1) level hmore characters
      have hclosed := closed_writtenMembers (level + 1) level entries ('}' :: characters)
      rw [members]
      refine (yields_moreMembers_first (isBlank_of_mem_indent _) _).bind ?_
      exact yields_membersFrom hentry (show _ ≤ fuel by omega) hclosed List.not_mem_nil hrest

/-! ### Whole texts -/

/-- A plain value is read back wherever it is written. -/
theorem Plain.readBack {content : Json} (hplain : Plain content) : ReadBack content := by
  induction hplain with
  | text text => exact readBack_text text
  | whole hrange => exact readBack_whole hrange
  | array _ ih => exact readBack_array ih
  | object hnames _ ih => exact readBack_object hnames ih

/-- What is written of a plain value is one JSON text, and blanks may follow. -/
theorem Plain.parse_print {content : Json} (hplain : Plain content) {blanks : List Char}
    (hblanks : ∀ character ∈ blanks, isBlank character = true) :
    parse (content.print ++ String.ofList blanks) = .ok content := by
  have hclosed : Closed blanks := by
    intro character hcharacter
    have hblank := hblanks character (List.mem_of_head? hcharacter)
    simp only [isBlank, Bool.or_eq_true, beq_iff_eq] at hblank
    rcases hblank with ((rfl | rfl) | rfl) | rfl <;> decide
  have htext : (content.print ++ String.ofList blanks).toList = written 0 content ++ blanks := by
    rw [String.toList_append, String.toList_ofList]
    rfl
  have hfuel : (written 0 content).length ≤ enoughFuel (written 0 content ++ blanks).length := by
    rw [List.length_append, enoughFuel]
    omega
  have hyields := hplain.readBack.yields 0 _ [] blanks hfuel (List.forall_mem_nil _) hclosed
  rw [List.nil_append, ← htext] at hyields
  exact readAll_eq hyields hblanks

end Json

/-! ### Nodes -/

namespace Node

open Json (Mismatch)

theorem listOf_map {α : Type} {item : Json → Except Mismatch α} {write : α → Json}
    (hitem : ∀ content, item (write content) = .ok content) (contents : List α) :
    listOf item (.array (contents.map write)) = .ok contents := by
  rw [listOf]
  induction contents with
  | nil => rfl
  | cons content rest ih =>
    rw [List.map_cons, List.mapM_cons, hitem, ih]
    rfl

theorem kindOf_label (kind : Name.Kind) : kindOf (.text kind.label) = .ok kind := by
  have hlabel : Name.Kind.ofLabel? kind.label = some kind := by
    cases kind <;> decide +kernel
  rw [kindOf, kindOfLabel, hlabel]

theorem naturalOf_whole (number : Nat) : naturalOf (.whole number) = .ok number := by
  rw [naturalOf, if_pos (Int.natCast_nonneg number), Int.toNat_natCast]

/-- A node is read back from its object. -/
theorem ofJson_toJson (node : Node) : ofJson node.toJson = .ok node := by
  have htext (content : String) : textOf (.text content) = .ok content := rfl
  have hchildren := listOf_map htext node.children
  rw [toJson, ofJson]
  simp only [List.foldlM_cons, List.foldlM_nil, Draft.put, hchildren, kindOf_label, textOf,
    naturalOf_whole]
  rfl

theorem listOfJson_listToJson (nodes : List Node) :
    listOfJson (listToJson nodes) = .ok nodes :=
  listOf_map ofJson_toJson nodes

theorem plain_toJson {node : Node} (hcount : node.usedCount ≤ Json.largestNatural) :
    Json.Plain node.toJson := by
  have hnames : fieldNames.Nodup := by decide
  refine .object hnames fun entry hentry ↦ ?_
  simp only [List.mem_cons, List.not_mem_nil, or_false] at hentry
  rcases hentry with rfl | rfl | rfl | rfl | rfl
  · exact .text node.id
  · exact .array (List.forall_mem_map.mpr fun child _ ↦ .text child)
  · exact .text node.filePath
  · exact .text node.kind.label
  · exact .whole hcount

theorem plain_listToJson {nodes : List Node}
    (hcounts : ∀ node ∈ nodes, node.usedCount ≤ Json.largestNatural) :
    Json.Plain (listToJson nodes) :=
  .array (List.forall_mem_map.mpr fun node hnode ↦ plain_toJson (hcounts node hnode))

end Node

namespace Command

/-- The output in JSON is one text and a newline, and reading it gives back the nodes. The summary,
the diagnostics, colours and the wish for details have no part in it. Assumes: the counts have at
most sixty-four bits. -/
theorem json_output_lossless (nodes : List Node)
    (hcounts : ∀ node ∈ nodes, node.usedCount < 2 ^ 64) :
    ∃ text value,
      (∀ colours verbose summary diagnostics,
        (report colours verbose (.listing ⟨nodes, summary, diagnostics⟩ .json)).output =
          text ++ "\n") ∧
      text.toList.getLast? = some ']' ∧
      Json.parse text = .ok value ∧ Json.parse (text ++ "\n") = .ok value ∧
      Node.listOfJson value = .ok nodes := by
  have hplain : Json.Plain (Node.listToJson nodes) :=
    Node.plain_listToJson fun node hnode ↦ Nat.le_of_lt_succ (hcounts node hnode)
  refine ⟨(Node.listToJson nodes).print, Node.listToJson nodes, fun _ _ _ _ ↦ rfl, ?_, ?_, ?_, ?_⟩
  · exact Json.getLast?_written_array 0 _
  · have htext := hplain.parse_print (List.forall_mem_nil _)
    rwa [String.ofList_nil, String.append_empty] at htext
  · have hnewline : ∀ character ∈ ['\n'], Json.isBlank character = true :=
      List.forall_mem_singleton.mpr rfl
    exact hplain.parse_print hnewline
  · exact Node.listOfJson_listToJson nodes

/-- A node with texts that have to be escaped and the largest count. -/
def oddNode : Node where
  id := "say \"hi\"\\\x01\n"
  children := ["", "\x1f𝔸é"]
  filePath := "C:\\src\tApp.tsx"
  kind := .constant
  usedCount := 2 ^ 64 - 1

theorem json_output_lossless_oddNode :
    (∀ node ∈ [oddNode], node.usedCount < 2 ^ 64) ∧
    ∃ text value,
      (report true true (.listing ⟨[oddNode], .failed "no root", [⟨"App.tsx", .read, "]"⟩]⟩
        .json)).output = text ++ "\n" ∧
      Json.parse text = .ok value ∧ Node.listOfJson value = .ok [oddNode] := by
  have hcounts : ∀ node ∈ [oddNode], node.usedCount < 2 ^ 64 := by decide
  obtain ⟨text, value, houtput, _, hparse, _, hnodes⟩ := json_output_lossless [oddNode] hcounts
  exact ⟨hcounts, text, value, houtput true true _ _, hparse, hnodes⟩

end Command

end ComponentGraph
