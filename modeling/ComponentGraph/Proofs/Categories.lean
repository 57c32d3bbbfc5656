import ComponentGraph.Proofs.Consistency
import ComponentGraph.Proofs.Judgement
import ComponentGraph.Proofs.Occurrences

/-!
The categories that nodes have.

A name can be a constant only if it is its own upper-case form. Upper-casing never shortens a text,
so such a text has no character that upper-casing changes (`eq_singleton_of_ofString_eq`), not even
one whose upper-case form is longer. A significant name that is neither spelled like a component nor
like a hook has a role marker in it, and every role marker has lower-case letters. Hence no
significant name is a constant (`categorised_kind`).

The names in the events of a module are significant, since every event is that of one part, which
asks for it (`isSignificant_of_mem_events`). Records are made for such names only, so no analysis
shows a constant, whatever the parser.
-/

set_option autoImplicit false
set_option relaxedAutoImplicit false

namespace ComponentGraph

/-! ### Upper case -/

namespace Text.Uppercase

theorem ofChar_ne_nil (character : Char) : ofChar character ≠ [] := by
  have hexpansions : ∀ entry ∈ expansions, entry.2 ≠ [] := by decide
  rw [ofChar]
  split
  · rename_i entry hentry
    simpa using hexpansions entry (List.mem_of_find?_eq_some hentry)
  · exact List.cons_ne_nil _ _

theorem length_le_flatMap (characters : List Char) :
    characters.length ≤ (characters.flatMap ofChar).length := by
  induction characters with
  | nil => exact Nat.le_refl 0
  | cons character rest ih =>
    have hpositive := List.length_pos_iff.mpr (ofChar_ne_nil character)
    rw [List.flatMap_cons, List.length_append, List.length_cons]
    omega

/-- Where upper-casing changes nothing it changes no character. A character with a longer upper-case
form would make the text longer, and no other character makes up for that. -/
theorem eq_singleton_of_flatMap_eq {characters : List Char}
    (hsame : characters.flatMap ofChar = characters) :
    ∀ character ∈ characters, ofChar character = [character] := by
  induction characters with
  | nil => exact fun character hcharacter ↦ absurd hcharacter List.not_mem_nil
  | cons first rest ih =>
    rw [List.flatMap_cons] at hsame
    have hlengths := congrArg List.length hsame
    rw [List.length_append, List.length_cons] at hlengths
    have hpositive := List.length_pos_iff.mpr (ofChar_ne_nil first)
    have hrest := length_le_flatMap rest
    obtain ⟨upper, hupper⟩ := List.length_eq_one_iff.mp
      (show (ofChar first).length = 1 by omega)
    rw [hupper, List.singleton_append, List.cons.injEq] at hsame
    obtain ⟨rfl, hlater⟩ := hsame
    exact List.forall_mem_cons.mpr ⟨hupper, ih hlater⟩

theorem eq_singleton_of_ofString_eq {text : String} (hsame : ofString text = text) :
    ∀ character ∈ text.toList, ofChar character = [character] := by
  refine eq_singleton_of_flatMap_eq ?_
  have hcharacters := congrArg String.toList hsame
  rwa [ofString, String.toList_ofList] at hcharacters

end Text.Uppercase

/-! ### Names -/

namespace Name

open Text.Search

/-- Every role marker has one letter that is not in upper case. -/
theorem r_mem_of_mem_roleMarkers : ∀ marker ∈ roleMarkers, 'r' ∈ marker.toList := by
  decide +kernel

theorem ofChar_r_ne : Text.Uppercase.ofChar 'r' ≠ ['r'] := by
  decide +kernel

/-- A name with a role marker in it is not its own upper-case form. -/
theorem ofString_ne_of_roleMarker {name marker : String} (hmarker : marker ∈ roleMarkers)
    (hcontains : contains name marker = true) : Text.Uppercase.ofString name ≠ name := by
  intro hsame
  have hpart : marker.toList <:+: name.toList := (contains_iff name marker).mp hcontains
  have hletter : 'r' ∈ name.toList := hpart.subset (r_mem_of_mem_roleMarkers marker hmarker)
  exact ofChar_r_ne (Text.Uppercase.eq_singleton_of_ofString_eq hsame 'r' hletter)

/-- What puts a name in its category, for the three categories that significant names have. -/
inductive Categorised (name : String) : Kind → Prop where
  | component (hstart : startsUppercase name = true) (hplain : contains name "_" = false) :
      Categorised name .component
  | hook (hstart : beginsWith name "use" = true) : Categorised name .hook
  | util {marker : String} (hmarker : marker ∈ roleMarkers)
      (hcontains : contains name marker = true) : Categorised name .util

theorem significant_cases {name : String} (hname : isSignificant name = true) :
    (startsUppercase name && !contains name "_") = true ∨ beginsWith name "use" = true ∨
      ∃ marker ∈ roleMarkers, contains name marker = true := by
  rw [isSignificant, Bool.and_eq_true, Bool.or_eq_true, Bool.or_eq_true, List.any_eq_true] at hname
  rcases hname.2 with (hcomponent | hhook) | hmarker
  · rw [Bool.and_eq_true, Bool.and_eq_true] at hcomponent
    exact .inl hcomponent.1.1
  · exact .inr (.inl (Bool.and_eq_true_iff.mp hhook).1)
  · exact .inr (.inr hmarker)

/-- A significant name is a component, a hook or a utility. -/
theorem categorised_kind {name : String} (hname : isSignificant name = true) :
    Categorised name (kind name) := by
  rw [kind]
  split
  · rename_i hcomponent
    rw [Bool.and_eq_true, Bool.not_eq_true'] at hcomponent
    exact .component hcomponent.1 hcomponent.2
  · rename_i hcomponent
    split
    · rename_i hhook
      exact .hook hhook
    · rename_i hhook
      -- only a role marker is left to make the name significant
      obtain ⟨marker, hmarker, hcontains⟩ :=
        ((significant_cases hname).resolve_left hcomponent).resolve_left hhook
      have hchanged : ¬ (name == Text.Uppercase.ofString name) = true := fun hsame ↦
        ofString_ne_of_roleMarker hmarker hcontains (beq_iff_eq.mp hsame).symm
      rw [if_neg hchanged]
      exact .util hmarker hcontains

theorem Categorised.ne_constant {name : String} {kind : Kind} (hkind : Categorised name kind) :
    kind ≠ .constant := by
  rintro rfl
  cases hkind

end Name

/-! ### Events -/

namespace Source

/-- The names that an event is about. -/
def Event.names : Event → List String
  | .declared name => [name]
  | .imported _ names => names
  | .rendered name => [name]

/-- The event of a part is about significant names only. -/
theorem Part.isSignificant_of_mem_own {part : Part} {event : Event} (hevent : event ∈ part.own)
    {name : String} (hname : name ∈ event.names) : Name.isSignificant name = true := by
  cases event with
  | declared declared =>
    cases List.mem_singleton.mp hname
    exact (declared_mem_own.mp hevent).1
  | imported source names =>
    obtain ⟨bindings, _, rfl⟩ := imported_mem_own.mp hevent
    exact (List.mem_filter.mp hname).2
  | rendered rendered =>
    cases List.mem_singleton.mp hname
    exact (rendered_mem_own.mp hevent).2.2

/-- All names in the events of a module are significant, since every event is that of a part. -/
theorem isSignificant_of_mem_events (module : Module) {event : Event}
    (hevent : event ∈ module.events)
    {name : String} (hname : name ∈ event.names) : Name.isSignificant name = true := by
  obtain ⟨located, hlocated⟩ := (Part.module module).exists_locates
  have hwalk : event ∈ (Part.module module).walk := hevent
  rw [hlocated.walk, List.mem_append] at hwalk
  rcases hwalk with hown | hlisted
  · exact Part.isSignificant_of_mem_own hown hname
  · obtain ⟨⟨position, _⟩, hmem, rfl⟩ := List.mem_map.mp hlisted
    obtain ⟨_, found, _, hown⟩ := (hlocated.mem position _).mp hmem
    exact Part.isSignificant_of_mem_own hown hname

end Source

/-! ### Nodes -/

namespace Journal

open Analysis

variable {files : Files} {options : Options}

theorem isSignificant_of_mem_eventsOf {path : Path} {event : Source.Event}
    (hevent : event ∈ eventsOf files path) {name : String} (hname : name ∈ event.names) :
    Name.isSignificant name = true := by
  rw [eventsOf] at hevent
  split at hevent
  · rename_i parsed _
    exact Source.isSignificant_of_mem_events parsed.module hevent hname
  · exact absurd hevent List.not_mem_nil

theorem mem_names_of_use_mem_eventBookings {path : Path} {active : Option Active}
    {event : Source.Event} {name : String}
    (huse : .use name ∈ eventBookings options path active event) : name ∈ event.names := by
  have hcredit {owner : Option String} {used : String}
      (hbooked : .use name ∈ creditBookings owner used) : name = used := by
    cases owner <;> simpa [creditBookings] using hbooked
  cases event with
  | declared declared => simp [eventBookings] at huse
  | rendered rendered =>
    rw [eventBookings] at huse
    split at huse
    · exact List.mem_singleton.mpr (hcredit huse)
    · exact absurd huse List.not_mem_nil
  | imported source names =>
    rw [eventBookings] at huse
    split at huse
    · obtain ⟨used, hused, hbooked⟩ := List.mem_flatMap.mp huse
      rwa [hcredit hbooked]
    · exact absurd huse List.not_mem_nil

/-- A scan books a use only of a name that is in one of its events. -/
theorem exists_event_of_use_mem_scanBookings {path : Path} {active : Option Active}
    {events : List Source.Event} {name : String}
    (huse : .use name ∈ scanBookings options path active events) :
    ∃ event ∈ events, name ∈ event.names := by
  induction events generalizing active with
  | nil => exact absurd huse List.not_mem_nil
  | cons event events ih =>
    rcases List.mem_append.mp huse with hfirst | hlater
    · exact ⟨event, List.mem_cons_self, mem_names_of_use_mem_eventBookings hfirst⟩
    · obtain ⟨other, hother, hname⟩ := ih hlater
      exact ⟨other, List.mem_cons_of_mem event hother, hname⟩

/-- Records are made for significant names only. -/
theorem Balanced.isSignificant {ledger : Ledger} (hbalanced : Balanced files options ledger)
    {name : String} (hknown : (ledger.record? name).isSome = true) :
    Name.isSignificant name = true := by
  obtain ⟨path, _, hdeclared | hused⟩ := (hbalanced.known name).mp hknown
  · exact isSignificant_of_mem_eventsOf hdeclared (List.mem_singleton_self name)
  · obtain ⟨event, hevent, hname⟩ :=
      exists_event_of_use_mem_scanBookings (List.count_pos_iff.mp hused)
    exact isSignificant_of_mem_eventsOf hevent hname

end Journal

namespace Project

/-- A node of a ledger has a significant name and the category of its name. -/
theorem significant_of_mem_ofLedger {files : Analysis.Files} {options : Options} {ledger : Ledger}
    (hledger : ledger.WellFormed) (hbalanced : Journal.Balanced files options ledger)
    {maxNodes : Nat} {node : Node} (hnode : node ∈ (Ranking.ofLedger ledger maxNodes).nodes) :
    Name.isSignificant node.id = true ∧ node.kind = Name.kind node.id := by
  obtain ⟨record, hrecord, hdescribes⟩ := Ranking.exists_describes hledger hnode
  refine ⟨hbalanced.isSignificant (by rw [hrecord, Option.isSome_some]), ?_⟩
  rw [hdescribes.kind, ← recordOf_of_record? hrecord]
  exact hledger.kinds node.id

theorem significant_of_mem_analyze {parse : Source.Parser} {tree : FileTree} {options : Options}
    {root : Path} {node : Node} (hnode : node ∈ (analyze parse tree options root).nodes) :
    Name.isSignificant node.id = true ∧ node.kind = Name.kind node.id := by
  cases hroot : rootOf tree root with
  | error problem =>
    rw [analyze, tryAnalyze, hroot] at hnode
    exact absurd hnode List.not_mem_nil
  | ok path =>
    rw [analyze, tryAnalyze, hroot] at hnode
    exact significant_of_mem_ofLedger
      (Ledger.wellFormed_empty.apply (.analysis parse tree options (.project path)))
      (Journal.balanced_survey parse tree options path) hnode

/-- Nothing that is shown is a constant. Significant names are never constants, the events of a
module are about significant names, and so is every node of an analysis. -/
theorem no_constant_shown :
    (∀ name, Name.isSignificant name = true →
      Name.Categorised name (Name.kind name) ∧ Name.kind name ≠ .constant) ∧
    (∀ module : Source.Module, ∀ event ∈ module.events, ∀ name ∈ event.names,
      Name.isSignificant name = true) ∧
    ∀ parse tree options root, ∀ node ∈ (analyze parse tree options root).nodes,
      Name.isSignificant node.id = true ∧ node.kind = Name.kind node.id ∧
        node.kind ≠ .constant := by
  refine ⟨fun name hname ↦ ?_, fun module event hevent name hname ↦ ?_,
    fun parse tree options root node hnode ↦ ?_⟩
  · exact ⟨Name.categorised_kind hname, (Name.categorised_kind hname).ne_constant⟩
  · exact Source.isSignificant_of_mem_events module hevent hname
  · obtain ⟨hname, hkind⟩ := significant_of_mem_analyze hnode
    refine ⟨hname, hkind, ?_⟩
    rw [hkind]
    exact (Name.categorised_kind hname).ne_constant

/-- A file with a name in capitals and a name whose upper-case form is longer than itself. -/
def settings : FileTree where
  root := .directory [("keys.ts", .file (.text "const API_KEY = 1; const ßService = API_KEY"))]
  workingDirectory := []

theorem no_constant_shown_settings :
    Name.kind "API_KEY" = .constant ∧
    (analyze Source.parse settings {} ⟨"/"⟩).nodes.map Node.id = ["ßService"] ∧
    Name.isSignificant "ßService" = true ∧ Name.kind "ßService" ≠ .constant ∧
    ∀ node ∈ (analyze Source.parse settings {} ⟨"/"⟩).nodes, node.kind ≠ .constant :=
  ⟨by decide +kernel, by decide +kernel, by decide +kernel,
    (no_constant_shown.1 "ßService" (by decide +kernel)).2,
    fun node hnode ↦ (no_constant_shown.2.2 Source.parse settings {} ⟨"/"⟩ node hnode).2.2⟩

end Project

end ComponentGraph
