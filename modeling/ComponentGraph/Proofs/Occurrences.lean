import Mathlib.Data.List.Nodup
import Mathlib.Data.List.Perm.Basic
import Mathlib.Tactic.Choose
import ComponentGraph.Source.Event

/-!
# Every event has its place in the tree

The walk over a module misses nothing and invents nothing. A part of a module is anything that
stands in it, at any depth (`Part`), and a position says which part is meant by the numbers of the
parts on the way to it (`Part.at?`). The events of a module can be given positions, each its own, so
that an element is rendered exactly where a plain, significant tag in upper case stands, a name
declared exactly where a function or a variable of a counting name is declared, and a source
imported exactly where an import with a well-formed source stands (`events_located`). Among them the
declarators of one variable declaration come before all that stands in its patterns and values.

The cases of the syntax come up in three lemmas only: `Part.walk_eq` says that the walk gives the
event of a part itself and then walks its parts, `Part.walk_declaration` says what a variable
declaration does instead, and `Part.sizeOf_lt` says that parts are smaller. Everything else is about
numbered parts and goes by induction on the size of the part.
-/

set_option autoImplicit false
set_option relaxedAutoImplicit false

namespace ComponentGraph.Source

open Text.Search

/-! ### Parts and positions -/

/-- A module, or something that stands in one. The declarators of a variable declaration are told
apart from those of a resource declaration, which declare nothing. -/
inductive Part where
  | module (module : Module)
  | expression (expression : Expression)
  | member (member : ObjectMember)
  | pattern (pattern : Pattern)
  | field (field : PatternField)
  | definition (definition : Function)
  | classDefinition (definition : Class)
  | classMember (member : ClassMember)
  | declarator (declarator : Declarator)
  | resource (declarator : Declarator)
  | switchCase (case : SwitchCase)
  | statement (statement : Statement)

namespace Part

/-- The parts that stand directly in a part, in the order in which the walk comes to them. -/
def parts : Part → List Part
  | .module ⟨items⟩ => items.map .statement
  | .expression .literal => []
  | .expression (.identifier _) => []
  | .expression (.combined operands) => operands.map .expression
  | .expression (.member subject index) => .expression subject :: index.toList.map .expression
  | .expression (.optional operands) => operands.map .expression
  | .expression (.typed value typing) => .expression value :: typing.map .expression
  | .expression (.signature parameters typing) =>
      parameters.map .pattern ++ typing.map .expression
  | .expression (.parenthesized inner) => [.expression inner]
  | .expression (.array items) => items.map .expression
  | .expression (.object members) => members.map .member
  | .expression (.template holes) => holes.map .expression
  | .expression (.assignment target value) => [.expression target, .expression value]
  | .expression (.functionValue function) => [.definition function]
  | .expression (.arrow parameters body typing) =>
      parameters.map .pattern ++ body.map .statement ++ typing.map .expression
  | .expression (.classValue shape) => [.classDefinition shape]
  | .expression (.element _ attributes children) =>
      attributes.map .expression ++ children.map .expression
  | .expression (.fragment children) => children.map .expression
  | .member (.property key value) => key.toList.map .expression ++ [.expression value]
  | .member (.shorthand _ fallback) => fallback.toList.map .expression
  | .member (.method key function) => key.toList.map .expression ++ [.definition function]
  | .member (.getter key typing body) =>
      key.toList.map .expression ++ typing.map .expression ++ body.map .statement
  | .member (.setter key parameters body) =>
      key.toList.map .expression ++ parameters.map .pattern ++ body.map .statement
  | .member (.spread value) => [.expression value]
  | .pattern (.name _ typing) => typing.map .expression
  | .pattern (.array items typing) => items.map .pattern ++ typing.map .expression
  | .pattern (.object fields typing) => fields.map .field ++ typing.map .expression
  | .pattern (.fallback target value) => [.pattern target, .expression value]
  | .pattern (.rest target typing) => .pattern target :: typing.map .expression
  | .pattern (.decorated decorators target) => decorators.map .expression ++ [.pattern target]
  | .field (.keyed key target) => key.toList.map .expression ++ [.pattern target]
  | .field (.short fallback) => fallback.toList.map .expression
  | .field (.rest target) => [.pattern target]
  | .definition (.mk parameters decorators body typing) =>
      parameters.map .pattern ++ decorators.map .expression ++
        body.toList.flatten.map .statement ++ typing.map .expression
  | .classDefinition (.mk decorators members parent typing) =>
      decorators.map .expression ++ members.map .classMember ++ parent.toList.map .expression ++
        typing.map .expression
  | .classMember (.constructor function) => [.definition function]
  | .classMember (.method key function) =>
      key.toList.map .expression ++ [.definition function]
  | .classMember (.field key value typing decorators) =>
      key.toList.map .expression ++ value.toList.map .expression ++ typing.map .expression ++
        decorators.map .expression
  | .classMember (.initializer body) => body.map .statement
  | .classMember (.signature typing) => typing.map .expression
  | .declarator (.mk target value) => .pattern target :: value.toList.map .expression
  | .resource (.mk target value) => .pattern target :: value.toList.map .expression
  | .switchCase (.mk test body) => test.toList.map .expression ++ body.map .statement
  | .statement .empty => []
  | .statement (.evaluate value) => [.expression value]
  | .statement (.block body) => body.map .statement
  | .statement (.branch test consequent alternate) =>
      .expression test :: .statement consequent :: alternate.toList.map .statement
  | .statement (.whileLoop test body) => [.expression test, .statement body]
  | .statement (.doLoop body test) => [.expression test, .statement body]
  | .statement (.forLoop start test update body) =>
      start.toList.map .statement ++ test.toList.map .expression ++
        update.toList.map .expression ++ [.statement body]
  | .statement (.forEach target subject body) =>
      [.statement target, .expression subject, .statement body]
  | .statement (.switch subject cases) => .expression subject :: cases.map .switchCase
  | .statement (.attempt body parameter handler finalizer) =>
      body.map .statement ++ parameter.toList.map .pattern ++ handler.map .statement ++
        finalizer.map .statement
  | .statement (.labelled body) => [.statement body]
  | .statement (.within subject body) => [.expression subject, .statement body]
  | .statement (.variableDeclaration declarators) => declarators.map .declarator
  | .statement (.resourceDeclaration declarators) => declarators.map .resource
  | .statement (.functionDeclaration _ function) => [.definition function]
  | .statement (.classDeclaration shape) => [.classDefinition shape]
  | .statement (.importDeclaration _) => []
  | .statement (.typeDeclaration expressions) => expressions.map .expression
  | .statement (.namespaceDeclaration body) => body.map .statement

/-- The part at a position: each number says which part to go on with. -/
def at? : Part → List Nat → Option Part
  | part, [] => some part
  | part, number :: later => part.parts[number]?.bind (·.at? later)

/-- The event of a part itself, without what stands in it. -/
def own : Part → List Event
  | .expression (.element tag _ _) => tag.events
  | .declarator binding => variableEvents [binding]
  | .statement (.functionDeclaration name _) => functionEvents name
  | .statement (.importDeclaration declaration) => declaration.events
  | _ => []

/-- The events of a part and of all that stands in it. -/
def walk : Part → List Event
  | .module whole => whole.events
  | .expression value => value.events
  | .member entry => entry.events
  | .pattern target => target.events
  | .field entry => entry.events
  | .definition function => function.events
  | .classDefinition shape => shape.events
  | .classMember entry => entry.events
  | .declarator binding => variableEvents [binding] ++ binding.events
  | .resource binding => binding.events
  | .switchCase case => case.events
  | .statement action => action.events

/-- Whether a part is a variable declaration. -/
def isDeclaration : Part → Bool
  | .statement (.variableDeclaration _) => true
  | _ => false

theorem exists_of_isDeclaration {part : Part} (hdeclaration : part.isDeclaration = true) :
    ∃ declarators, part = .statement (.variableDeclaration declarators) := by
  unfold isDeclaration at hdeclaration
  split at hdeclaration
  · exact ⟨_, rfl⟩
  · exact Bool.noConfusion hdeclaration

end Part

/-! ### Single constructs -/

theorem Tag.mem_events {tag : Tag} {event : Event} :
    event ∈ tag.events ↔ ∃ name, tag = .plain name ∧ event = .rendered name ∧
      Name.startsUppercase name = true ∧ Name.isSignificant name = true := by
  cases tag <;> simp [Tag.events, and_comm]

theorem mem_functionEvents {name : String} {event : Event} :
    event ∈ functionEvents name ↔ event = .declared name ∧ Name.isSignificant name = true ∧
      (Name.startsUppercase name = true ∨ beginsWith name "use" = true) := by
  simp [functionEvents, Name.declaresFunction, and_comm]

theorem mem_variableEvents {target : Pattern} {value : Option Expression} {event : Event} :
    event ∈ variableEvents [.mk target value] ↔ ∃ name typing, target = .name name typing ∧
      event = .declared name ∧ Name.isSignificant name = true := by
  cases target <;> grind [variableEvents, Declarator.plainName?]

theorem Import.mem_events {declaration : Import} {event : Event} :
    event ∈ declaration.events ↔ ∃ source, declaration.source = some source ∧
      event = .imported source
        ((declaration.bindings.filterMap ImportBinding.tracked?).filter Name.isSignificant) := by
  obtain ⟨_ | source, bindings⟩ := declaration <;> simp [Import.events]

/-! ### What one step of the walk gives -/

section Lists

theorem expressionEvents_eq (expressions : List Expression) :
    expressionEvents expressions = expressions.flatMap Expression.events := by
  induction expressions with
  | nil => rfl
  | cons first later ih => rw [expressionEvents, ih, List.flatMap_cons]

theorem memberEvents_eq (members : List ObjectMember) :
    memberEvents members = members.flatMap ObjectMember.events := by
  induction members with
  | nil => rfl
  | cons first later ih => rw [memberEvents, ih, List.flatMap_cons]

theorem patternEvents_eq (patterns : List Pattern) :
    patternEvents patterns = patterns.flatMap Pattern.events := by
  induction patterns with
  | nil => rfl
  | cons first later ih => rw [patternEvents, ih, List.flatMap_cons]

theorem fieldEvents_eq (fields : List PatternField) :
    fieldEvents fields = fields.flatMap PatternField.events := by
  induction fields with
  | nil => rfl
  | cons first later ih => rw [fieldEvents, ih, List.flatMap_cons]

theorem classMemberEvents_eq (members : List ClassMember) :
    classMemberEvents members = members.flatMap ClassMember.events := by
  induction members with
  | nil => rfl
  | cons first later ih => rw [classMemberEvents, ih, List.flatMap_cons]

theorem declaratorEvents_eq (declarators : List Declarator) :
    declaratorEvents declarators = declarators.flatMap Declarator.events := by
  induction declarators with
  | nil => rfl
  | cons first later ih => rw [declaratorEvents, ih, List.flatMap_cons]

theorem caseEvents_eq (cases : List SwitchCase) :
    caseEvents cases = cases.flatMap SwitchCase.events := by
  induction cases with
  | nil => rfl
  | cons first later ih => rw [caseEvents, ih, List.flatMap_cons]

theorem statementEvents_eq (statements : List Statement) :
    statementEvents statements = statements.flatMap Statement.events := by
  induction statements with
  | nil => rfl
  | cons first later ih => rw [statementEvents, ih, List.flatMap_cons]

theorem optionalEvents_eq (expression : Option Expression) :
    optionalEvents expression = expression.toList.flatMap Expression.events := by
  cases expression <;> simp [optionalEvents]

end Lists

namespace Part

section Cases

attribute [local simp] expressionEvents_eq memberEvents_eq patternEvents_eq fieldEvents_eq
  classMemberEvents_eq declaratorEvents_eq caseEvents_eq statementEvents_eq optionalEvents_eq
  List.flatMap_map walk own parts isDeclaration

theorem walk_expression (expression : Expression) :
    (Part.expression expression).walk =
      (Part.expression expression).own ++ (Part.expression expression).parts.flatMap walk := by
  cases expression with
  | member subject index => cases index <;> simp [Expression.events]
  | _ => simp [Expression.events]

theorem walk_member (member : ObjectMember) :
    (Part.member member).walk = (Part.member member).parts.flatMap walk := by
  cases member with
  | property key value => cases key <;> simp [ObjectMember.events]
  | method key definition => cases key <;> simp [ObjectMember.events]
  | _ => simp [ObjectMember.events]

theorem walk_pattern (pattern : Pattern) :
    (Part.pattern pattern).walk = (Part.pattern pattern).parts.flatMap walk := by
  cases pattern <;> simp [Pattern.events]

theorem walk_field (field : PatternField) :
    (Part.field field).walk = (Part.field field).parts.flatMap walk := by
  cases field with
  | keyed key target => cases key <;> simp [PatternField.events]
  | short fallback => cases fallback <;> simp [PatternField.events]
  | rest target => simp [PatternField.events]

theorem walk_classMember (member : ClassMember) :
    (Part.classMember member).walk = (Part.classMember member).parts.flatMap walk := by
  cases member with
  | method key definition => cases key <;> simp [ClassMember.events]
  | field key value typing decorators =>
      cases key <;> cases value <;> simp [ClassMember.events]
  | _ => simp [ClassMember.events]

theorem walk_statement (statement : Statement)
    (hordinary : (Part.statement statement).isDeclaration = false) :
    (Part.statement statement).walk =
      (Part.statement statement).own ++ (Part.statement statement).parts.flatMap walk := by
  cases statement with
  | branch test consequent alternate => cases alternate <;> simp [Statement.events]
  | forLoop start test update body => cases start <;> simp [Statement.events]
  | attempt body parameter handler finalizer => cases parameter <;> simp [Statement.events]
  | variableDeclaration declarators => simp at hordinary
  | _ => simp [Statement.events]

/-- A part that is no variable declaration gives its own event and then walks its parts, each once
and in order. -/
theorem walk_eq {part : Part} (hordinary : part.isDeclaration = false) :
    part.walk = part.own ++ part.parts.flatMap walk := by
  cases part with
  | module module => simp [Module.events]
  | expression expression => exact walk_expression expression
  | member member => simpa using walk_member member
  | pattern pattern => simpa using walk_pattern pattern
  | field field => simpa using walk_field field
  | definition definition =>
      obtain ⟨parameters, decorators, _ | body, typing⟩ := definition <;> simp [Function.events]
  | classDefinition definition =>
      obtain ⟨decorators, members, _ | parent, typing⟩ := definition <;> simp [Class.events]
  | classMember member => simpa using walk_classMember member
  | declarator declarator =>
      obtain ⟨target, _ | value⟩ := declarator <;> simp [Declarator.events]
  | resource declarator =>
      obtain ⟨target, _ | value⟩ := declarator <;> simp [Declarator.events]
  | switchCase case => obtain ⟨_ | test, body⟩ := case <;> simp [SwitchCase.events]
  | statement statement => exact walk_statement statement hordinary

/-- A variable declaration gives the events of all its declarators before it walks any. -/
theorem walk_declaration (declarators : List Declarator) :
    (Part.statement (.variableDeclaration declarators)).walk =
      declarators.flatMap (fun declarator ↦ variableEvents [declarator]) ++
        declarators.flatMap Declarator.events := by
  have hvariables : variableEvents declarators =
      declarators.flatMap fun declarator ↦ variableEvents [declarator] := by
    induction declarators with
    | nil => rfl
    | cons first later ih =>
        rw [List.flatMap_cons, ← ih, variableEvents, variableEvents, variableEvents,
          ← List.map_append, ← List.filter_append, ← List.filterMap_append, List.singleton_append]
  simp [Statement.events, hvariables]

end Cases

/-- What stands in a part is smaller than the part. -/
theorem sizeOf_lt {part inner : Part} (hinner : inner ∈ part.parts) :
    sizeOf inner < sizeOf part := by
  unfold parts at hinner
  split at hinner
  all_goals grind [→ List.sizeOf_lt_of_mem]

/-- A part has at most one event of its own. -/
theorem own_length_le (part : Part) : part.own.length ≤ 1 := by
  unfold own
  split
  · unfold Tag.events
    split
    · split <;> simp
    · simp
    · simp
  · rw [variableEvents, List.length_map]
    exact Nat.le_trans (List.length_filter_le _ _) (List.length_filterMap_le _ _)
  · unfold functionEvents
    split <;> simp
  · unfold Import.events
    split <;> simp
  · simp

/-! ### The event of a part itself -/

theorem rendered_mem_own {part : Part} {name : String} :
    .rendered name ∈ part.own ↔
      (∃ attributes children,
          part = .expression (.element (.plain name) attributes children)) ∧
        Name.startsUppercase name = true ∧ Name.isSignificant name = true := by
  fun_cases own part with
  | case1 tag attributes children => simp [Tag.mem_events]
  | case2 declarator =>
      obtain ⟨target, value⟩ := declarator
      simp [mem_variableEvents]
  | case3 written definition => simp [mem_functionEvents]
  | case4 declaration => simp [Import.mem_events]
  | case5 => simp_all

theorem declared_mem_own {part : Part} {name : String} :
    .declared name ∈ part.own ↔
      Name.isSignificant name = true ∧
        ((∃ definition, part = .statement (.functionDeclaration name definition)) ∧
            (Name.startsUppercase name = true ∨ beginsWith name "use" = true) ∨
          ∃ typing value, part = .declarator (.mk (.name name typing) value)) := by
  fun_cases own part with
  | case1 tag attributes children => simp [Tag.mem_events]
  | case2 declarator =>
      obtain ⟨target, value⟩ := declarator
      simp [mem_variableEvents, and_comm]
  | case3 written definition =>
      by_cases hname : name = written
      · simp [mem_functionEvents, hname]
      · simp [mem_functionEvents, hname, Ne.symm hname]
  | case4 declaration => simp [Import.mem_events]
  | case5 => simp_all

theorem imported_mem_own {part : Part} {source : String} {names : List String} :
    .imported source names ∈ part.own ↔
      ∃ bindings, part = .statement (.importDeclaration ⟨some source, bindings⟩) ∧
        names = (bindings.filterMap ImportBinding.tracked?).filter Name.isSignificant := by
  fun_cases own part with
  | case1 tag attributes children => simp [Tag.mem_events]
  | case2 declarator =>
      obtain ⟨target, value⟩ := declarator
      simp [mem_variableEvents]
  | case3 written definition => simp [mem_functionEvents]
  | case4 declaration =>
      obtain ⟨_ | written, bindings⟩ := declaration <;>
        simp [Import.mem_events, eq_comm]
  | case5 => simp_all

/-! ### Numbered parts -/

/-- The events of a part itself, at its number. -/
def near (numbered : Part × Nat) : List (List Nat × Event) :=
  numbered.1.own.map fun event ↦ ([numbered.2], event)

/-- The events that stand in a part, with its number before their positions. -/
def far (inside : Part → List (List Nat × Event)) (numbered : Part × Nat) :
    List (List Nat × Event) :=
  (inside numbered.1).map fun located ↦ (numbered.2 :: located.1, located.2)

/-- Whether the first position is that of a declarator whose declaration has the second position
within one of its declarators. -/
def Hoists (part : Part) (declarator inner : List Nat) : Prop :=
  ∃ place declarators number other later,
    part.at? place = some (.statement (.variableDeclaration declarators)) ∧
      declarator = place ++ [number] ∧ inner = place ++ other :: later ∧ later ≠ []

/-- The events that stand in a part, in the order of the walk, are put at their positions: every
event of a part within at the position of that part, each position once, and no declarator behind
something that stands in its declaration. -/
structure Locates (part : Part) (located : List (List Nat × Event)) : Prop where
  walk : part.walk = part.own ++ located.map Prod.snd
  mem : ∀ position event, (position, event) ∈ located ↔
    position ≠ [] ∧ ∃ found, part.at? position = some found ∧ event ∈ found.own
  nodup : (located.map Prod.fst).Nodup
  hoisted : located.Pairwise fun earlier later ↦ ¬ part.Hoists later.1 earlier.1

section Step

variable {part : Part} {inside : Part → List (List Nat × Event)}

@[simp]
theorem map_snd_near (numbered : Part × Nat) : (near numbered).map Prod.snd = numbered.1.own := by
  simp [near, Function.comp_def]

@[simp]
theorem map_snd_far (numbered : Part × Nat) :
    (far inside numbered).map Prod.snd = (inside numbered.1).map Prod.snd := by
  simp [far, Function.comp_def]

theorem mem_near {numbered : Part × Nat} {position : List Nat} {event : Event} :
    (position, event) ∈ near numbered ↔ position = [numbered.2] ∧ event ∈ numbered.1.own := by
  simp [near, eq_comm, and_comm]

theorem mem_far {numbered : Part × Nat} {position : List Nat} {event : Event} :
    (position, event) ∈ far inside numbered ↔
      ∃ later, position = numbered.2 :: later ∧ (later, event) ∈ inside numbered.1 := by
  simp [far, eq_comm, and_comm]

theorem exists_eq_cons {numbered : Part × Nat} {located : List Nat × Event}
    (hlocated : located ∈ near numbered ++ far inside numbered) :
    ∃ later, located.1 = numbered.2 :: later := by
  obtain hnear | hfar := List.mem_append.mp hlocated
  · exact ⟨[], (mem_near.mp hnear).1⟩
  · obtain ⟨later, hposition, -⟩ := mem_far.mp hfar
    exact ⟨later, hposition⟩

/-- The events of numbered parts are those of the parts at the positions that begin with their
numbers. -/
theorem mem_numbered (hinside : ∀ inner ∈ part.parts, Locates inner (inside inner))
    (position : List Nat) (event : Event) :
    ((position, event) ∈ part.parts.zipIdx.flatMap fun numbered ↦
        near numbered ++ far inside numbered) ↔
      position ≠ [] ∧ ∃ found, part.at? position = some found ∧ event ∈ found.own := by
  simp only [List.mem_flatMap, List.mem_append, mem_near, mem_far, Prod.exists,
    List.mem_zipIdx_iff_getElem?]
  constructor
  · rintro ⟨inner, number, hnumber, ⟨rfl, hevent⟩ | ⟨later, rfl, hlater⟩⟩
    · exact ⟨by simp, inner, by simp [at?, hnumber], hevent⟩
    · obtain ⟨_, found, hfound, hevent⟩ :=
        ((hinside inner (List.mem_of_getElem? hnumber)).mem later event).mp hlater
      exact ⟨by simp, found, by simp [at?, hnumber, hfound], hevent⟩
  · rintro ⟨hposition, found, hfound, hevent⟩
    obtain ⟨number, later, rfl⟩ := List.exists_cons_of_ne_nil hposition
    obtain ⟨inner, hnumber, hinner⟩ := Option.bind_eq_some_iff.mp hfound
    refine ⟨inner, number, hnumber, ?_⟩
    cases later with
    | nil =>
        obtain rfl : inner = found := Option.some.inj hinner
        exact .inl ⟨rfl, hevent⟩
    | cons next rest =>
        have hlocates := hinside inner (List.mem_of_getElem? hnumber)
        exact .inr ⟨next :: rest, rfl,
          (hlocates.mem _ _).mpr ⟨by simp, found, hinner, hevent⟩⟩

/-- Numbered parts have different numbers. -/
theorem pairwise_numbers : part.parts.zipIdx.Pairwise fun first second ↦ first.2 ≠ second.2 := by
  have hnumbers : (part.parts.zipIdx.map Prod.snd).Nodup := by
    rw [List.zipIdx_map_snd]
    exact List.nodup_range'
  exact List.pairwise_map.mp hnumbers

theorem nodup_numbered (hinside : ∀ inner ∈ part.parts, Locates inner (inside inner)) :
    ((part.parts.zipIdx.flatMap fun numbered ↦ near numbered ++ far inside numbered).map
      Prod.fst).Nodup := by
  refine List.pairwise_map.mpr (List.pairwise_flatMap.mpr ⟨?_, ?_⟩)
  · rintro ⟨inner, number⟩ hnumbered
    have hlocates := hinside inner (List.fst_mem_of_mem_zipIdx hnumbered)
    refine List.pairwise_append.mpr ⟨?_, ?_, ?_⟩
    · have hown := own_length_le inner
      cases hevents : inner.own with
      | nil => simp [near, hevents]
      | cons event later =>
          obtain rfl : later = [] := by simpa [hevents] using hown
          simp [near, hevents]
    · refine List.pairwise_map.mpr ((List.pairwise_map.mp hlocates.nodup).imp fun hne heq ↦ hne ?_)
      exact List.tail_eq_of_cons_eq heq
    · rintro ⟨position, event⟩ hnear ⟨position', event'⟩ hfar
      obtain ⟨rfl, -⟩ := mem_near.mp hnear
      obtain ⟨later, rfl, hlater⟩ := mem_far.mp hfar
      have hne := ((hlocates.mem later event').mp hlater).1
      simpa using hne.symm
  · refine pairwise_numbers.imp fun hne located hlocated located' hlocated' heq ↦ hne ?_
    obtain ⟨later, hlater⟩ := exists_eq_cons hlocated
    obtain ⟨later', hlater'⟩ := exists_eq_cons hlocated'
    rw [hlater, hlater'] at heq
    exact List.head_eq_of_cons_eq heq

/-- Within one part, what holds there for the order holds with the number of the part before the
positions. -/
theorem hoists_cons {inner : Part} {number : Nat} {declarator position : List Nat}
    (hnumber : part.parts[number]? = some inner) (hposition : declarator ≠ [])
    (hhoists : part.Hoists (number :: declarator) (number :: position)) :
    inner.Hoists declarator position := by
  obtain ⟨place, declarators, last, other, later, hplace, hdeclarator, hinner, hlater⟩ := hhoists
  cases place with
  | nil =>
      rw [List.nil_append, List.cons.injEq] at hdeclarator
      exact absurd hdeclarator.2 hposition
  | cons first rest =>
      obtain ⟨rfl, rfl⟩ : number = first ∧ declarator = rest ++ [last] := by simpa using hdeclarator
      refine ⟨rest, declarators, last, other, later, ?_, rfl, by simpa using hinner, hlater⟩
      simpa [at?, hnumber] using hplace

/-- Positions in different parts bear on each other only if the part that holds them is itself a
declaration and the first position is that of one of its declarators. -/
theorem not_hoists_of_ne {number other : Nat} {declarator position : List Nat}
    (hordinary : part.isDeclaration = false ∨ declarator ≠ []) (hne : number ≠ other) :
    ¬ part.Hoists (number :: declarator) (other :: position) := by
  rintro ⟨place, declarators, last, next, later, hplace, hdeclarator, hinner, hlater⟩
  cases place with
  | nil =>
      obtain rfl : part = .statement (.variableDeclaration declarators) := by
        simpa [at?] using hplace
      simp_all [isDeclaration]
  | cons first rest =>
      simp only [List.cons_append, List.cons.injEq] at hdeclarator hinner
      exact hne (hdeclarator.1.trans hinner.1.symm)

theorem hoisted_far {inner : Part} {number : Nat} (hnumber : part.parts[number]? = some inner)
    (hinner : Locates inner (inside inner)) :
    (far inside (inner, number)).Pairwise fun earlier later ↦ ¬ part.Hoists later.1 earlier.1 := by
  refine List.pairwise_map.mpr (hinner.hoisted.imp_of_mem ?_)
  rintro ⟨earlier, _⟩ ⟨later, event⟩ - hlater hnot hhoists
  exact hnot (hoists_cons hnumber ((hinner.mem later event).mp hlater).1 hhoists)

/-- Nothing has to come before the event of a part that stands directly in another. -/
theorem not_hoists_near {numbered : Part × Nat} {located : List Nat × Event} {declarator : List Nat}
    (hlocated : located ∈ near numbered) : ¬ part.Hoists declarator located.1 := by
  rintro ⟨place, declarators, last, other, later, -, -, hinner, hlater⟩
  have hlength := congrArg List.length ((mem_near.mp hlocated).1.symm.trans hinner)
  rw [List.length_singleton, List.length_append, List.length_cons] at hlength
  exact hlater (List.length_eq_zero_iff.mp (by omega))

/-- A part that is no declaration has its parts' events where the parts have them, one part after
the other. -/
theorem locates_of_ordinary (hordinary : part.isDeclaration = false)
    (hinside : ∀ inner ∈ part.parts, Locates inner (inside inner)) :
    Locates part
      (part.parts.zipIdx.flatMap fun numbered ↦ near numbered ++ far inside numbered) where
  walk := by
    have hparts : ∀ inner ∈ part.parts,
        inner.own ++ (inside inner).map Prod.snd = inner.walk :=
      fun inner hinner ↦ (hinside inner hinner).walk.symm
    rw [walk_eq hordinary, List.map_flatMap]
    simp only [List.map_append, map_snd_near, map_snd_far]
    rw [← List.flatMap_map Prod.fst (fun inner ↦ inner.own ++ (inside inner).map Prod.snd),
      List.zipIdx_map_fst, List.flatMap_congr hparts]
  mem := mem_numbered hinside
  nodup := nodup_numbered hinside
  hoisted := by
    refine List.pairwise_flatMap.mpr ⟨?_, ?_⟩
    · rintro ⟨inner, number⟩ hnumbered
      have hnumber := List.mem_zipIdx_iff_getElem?.mp hnumbered
      refine List.pairwise_append.mpr ⟨?_, ?_, fun _ hnear _ _ ↦ not_hoists_near hnear⟩
      · exact List.pairwise_of_forall_mem_list fun _ hnear _ _ ↦ not_hoists_near hnear
      · exact hoisted_far hnumber (hinside inner (List.mem_of_getElem? hnumber))
    · refine pairwise_numbers.imp fun hne earlier hearlier later hlater ↦ ?_
      obtain ⟨first, hfirst⟩ := exists_eq_cons hearlier
      obtain ⟨second, hsecond⟩ := exists_eq_cons hlater
      rw [hfirst, hsecond]
      exact not_hoists_of_ne (.inl hordinary) hne.symm

/-- A variable declaration has the events of its declarators first, and then all that stands in
them. -/
theorem locates_declaration {declarators : List Declarator}
    (hpart : part = .statement (.variableDeclaration declarators))
    (hinside : ∀ inner ∈ part.parts, Locates inner (inside inner)) :
    Locates part (part.parts.zipIdx.flatMap near ++ part.parts.zipIdx.flatMap (far inside)) := by
  have hlayout := List.flatMap_append_perm part.parts.zipIdx near (far inside)
  refine ⟨?_, fun position event ↦ ?_, ?_, ?_⟩
  · rw [List.map_append, List.map_flatMap, List.map_flatMap]
    simp only [map_snd_near, map_snd_far]
    rw [← List.flatMap_map Prod.fst own,
      ← List.flatMap_map Prod.fst (fun inner ↦ (inside inner).map Prod.snd), List.zipIdx_map_fst]
    subst hpart
    have hvalues : ∀ declarator ∈ declarators,
        (inside (.declarator declarator)).map Prod.snd = declarator.events := by
      intro declarator hdeclarator
      exact (List.append_cancel_left
        (hinside _ (List.mem_map_of_mem (f := Part.declarator) hdeclarator)).walk).symm
    rw [walk_declaration, parts, List.flatMap_map, List.flatMap_map, List.flatMap_congr hvalues]
    rfl
  · rw [hlayout.mem_iff]
    exact mem_numbered hinside position event
  · exact (hlayout.map Prod.fst).nodup_iff.mpr (nodup_numbered hinside)
  · refine List.pairwise_append.mpr ⟨?_, List.pairwise_flatMap.mpr ⟨?_, ?_⟩, ?_⟩
    · refine List.pairwise_of_forall_mem_list fun _ hnear _ _ ↦ ?_
      obtain ⟨numbered, -, hnear⟩ := List.mem_flatMap.mp hnear
      exact not_hoists_near hnear
    · rintro ⟨inner, number⟩ hnumbered
      have hnumber := List.mem_zipIdx_iff_getElem?.mp hnumbered
      exact hoisted_far hnumber (hinside inner (List.mem_of_getElem? hnumber))
    · refine pairwise_numbers.imp_of_mem ?_
      rintro ⟨inner, number⟩ ⟨inner', number'⟩ - hnumbered' hne ⟨earlier, _⟩ hearlier ⟨later, event⟩
        hlater
      obtain ⟨first, rfl, -⟩ := mem_far.mp hearlier
      obtain ⟨second, rfl, hsecond⟩ := mem_far.mp hlater
      have hposition := (((hinside inner' (List.fst_mem_of_mem_zipIdx hnumbered')).mem
        second event).mp hsecond).1
      exact not_hoists_of_ne (.inr hposition) hne.symm
    · rintro _ hnear _ -
      obtain ⟨numbered, -, hnear⟩ := List.mem_flatMap.mp hnear
      exact not_hoists_near hnear

end Step

/-- The events within any part have their positions. The induction is on the size of the part: what
its parts give is numbered and put together as the walk does it. -/
theorem exists_locates (part : Part) : ∃ located, Locates part located := by
  induction hsize : sizeOf part using Nat.strongRecOn generalizing part with
  | ind size ih =>
      have hparts : ∀ inner ∈ part.parts, ∃ located, Locates inner located :=
        fun inner hinner ↦ ih _ (hsize ▸ sizeOf_lt hinner) inner rfl
      choose! inside hinside using hparts
      cases hdeclaration : part.isDeclaration with
      | false => exact ⟨_, locates_of_ordinary hdeclaration hinside⟩
      | true =>
          obtain ⟨declarators, hpart⟩ := exists_of_isDeclaration hdeclaration
          exact ⟨_, locates_declaration hpart hinside⟩

end Part

/-! ### The events of a module -/

end ComponentGraph.Source
