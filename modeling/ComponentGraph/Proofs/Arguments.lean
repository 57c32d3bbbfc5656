import ComponentGraph.Command.Arguments

/-!
Reading arguments with one parameter more. A command that has all parameters of another one and one
of its own, and that is given its own parameter in front, accepts the same arguments behind it and
reads the same values from them (`Form.read_extend`).

The two readings go on side by side (`Abreast`): the larger one is ahead by the value of the extra
parameter, which no other parameter looks at, and otherwise the same. Only an argument that names
the extra parameter again tells them apart. The smaller form refuses it, and the larger one is
doomed from then on, because no name takes two values, though it may notice this only when the value
is checked (`Progress.Doomed`).
-/

set_option autoImplicit false
set_option relaxedAutoImplicit false

namespace ComponentGraph.Command

/-! ### Being ahead by one value -/

/-- The progress with a value given before all others. -/
def Progress.ahead (name : String) (value : Value) (progress : Progress) : Progress :=
  { progress with given := (name, value) :: progress.given }

/-- The progress with a parameter that waits for its value, or a value that waits to be checked. -/
def Progress.await (progress : Progress) (pending : Pending) : Progress :=
  { progress with pending := some pending }

/-- Nothing that is still to be entered has the name. -/
structure Progress.Clear (name : String) (progress : Progress) : Prop where
  pending : ∀ pending, progress.pending = some pending → pending.name ≠ name
  positions : ∀ position ∈ progress.positions, position.name ≠ name

/-- Two readings, of which the second is ahead by a value, both go on or both fail. -/
inductive Abreast (name : String) (value : Value) :
    Except UsageError Progress → Except UsageError Progress → Prop where
  | both {progress : Progress} (hclear : progress.Clear name) :
      Abreast name value (.ok progress) (.ok (progress.ahead name value))
  | neither (first second : UsageError) : Abreast name value (.error first) (.error second)

section Reading

variable {name : String} {value : Value} {progress : Progress}

theorem Abreast.bind {first second : Except UsageError Progress}
    {next later : Progress → Except UsageError Progress}
    (habreast : Abreast name value first second)
    (hnext : ∀ progress, progress.Clear name →
      Abreast name value (next progress) (later (progress.ahead name value))) :
    Abreast name value (first >>= next) (second >>= later) := by
  cases habreast with
  | both hclear => exact hnext _ hclear
  | neither first second => exact .neither first second

theorem Progress.Clear.await (hclear : progress.Clear name) {pending : Pending}
    (hpending : pending.name ≠ name) :
    (progress.await pending).Clear name := by
  refine ⟨?_, hclear.positions⟩
  intro other hother
  cases hother
  exact hpending

theorem lookup_ahead {other : String} (hother : other ≠ name) (given : List (String × Value)) :
    ((name, value) :: given).lookup other = given.lookup other := by
  rw [List.lookup_cons, beq_eq_false_iff_ne.mpr hother]

theorem abreast_give {other : String} (hother : other ≠ name) (hclear : progress.Clear name)
    (checked : Except UsageError Value) :
    Abreast name value (progress.give other checked)
      ((progress.ahead name value).give other checked) := by
  have hlookup : (progress.ahead name value).given.lookup other = progress.given.lookup other :=
    lookup_ahead hother progress.given
  unfold Progress.give
  rw [hlookup]
  by_cases hgiven : (progress.given.lookup other).isSome = true
  · rw [if_pos hgiven, if_pos hgiven]
    exact .neither _ _
  · rw [if_neg hgiven, if_neg hgiven]
    cases checked with
    | error error => exact .neither error error
    | ok checked =>
      have hlater : ({ progress with given := progress.given ++ [(other, checked)] } :
          Progress).Clear name := ⟨hclear.pending, hclear.positions⟩
      exact .both hlater

theorem abreast_settle (hclear : progress.Clear name) :
    Abreast name value progress.settle (progress.ahead name value).settle := by
  have hpending : (progress.ahead name value).pending = progress.pending := rfl
  unfold Progress.settle
  rw [hpending]
  cases hwaiting : progress.pending with
  | none => exact .both hclear
  | some pending =>
    dsimp only
    cases hvalue : pending.value with
    | none => exact .neither _ _
    | some written =>
      have hsettled : ({ progress with pending := none } : Progress).Clear name := by
        refine ⟨?_, hclear.positions⟩
        intro other hother
        cases hother
      exact abreast_give (hclear.pending pending hwaiting) hsettled _

theorem abreast_flag {other : String} (hother : other ≠ name) (hclear : progress.Clear name) :
    Abreast name value (progress.flag other) ((progress.ahead name value).flag other) := by
  refine (abreast_settle hclear).bind ?_
  intro settled hsettled
  by_cases hhelp : other = helpFlag.name
  · rw [if_pos hhelp, if_pos hhelp]
    exact .neither _ _
  · rw [if_neg hhelp, if_neg hhelp]
    exact abreast_give hother hsettled _

theorem abreast_positional (argument : String) (hclear : progress.Clear name) :
    Abreast name value (progress.positional argument)
      ((progress.ahead name value).positional argument) := by
  have hpositions : (progress.ahead name value).positions = progress.positions := rfl
  unfold Progress.positional
  rw [hpositions]
  cases hwaiting : progress.positions with
  | nil => exact .neither _ _
  | cons position later =>
    refine (abreast_settle hclear).bind ?_
    intro settled hsettled
    have hnames := hwaiting ▸ hclear.positions
    have hlater : ({ settled with positions := later } : Progress).Clear name :=
      ⟨hsettled.pending, fun other hother ↦ hnames other (List.mem_cons_of_mem position hother)⟩
    exact .both (hlater.await (hnames position List.mem_cons_self))

theorem abreast_plain (argument : String) (hclear : progress.Clear name) :
    Abreast name value (progress.plain argument)
      ((progress.ahead name value).plain argument) := by
  have hpending : (progress.ahead name value).pending = progress.pending := rfl
  unfold Progress.plain
  rw [hpending]
  split
  · rename_i waiting shape hwaiting
    have hname : waiting ≠ name := hclear.pending _ hwaiting
    exact .both (hclear.await hname)
  · exact abreast_positional argument hclear

/-! ### A name that is given twice -/

/-- A second value for the name is pending. -/
structure Progress.Doomed (name : String) (progress : Progress) : Prop where
  pending : ∃ shape written, progress.pending = some ⟨name, shape, written⟩
  given : (progress.given.lookup name).isSome = true

theorem Progress.Doomed.settle (hdoomed : progress.Doomed name) :
    ∃ error, progress.settle = .error error := by
  obtain ⟨shape, written, hpending⟩ := hdoomed.pending
  unfold Progress.settle
  rw [hpending]
  cases written with
  | none => exact ⟨_, rfl⟩
  | some written => exact ⟨.repeatedParameter, if_pos hdoomed.given⟩

theorem Progress.Doomed.settle_bind (hdoomed : progress.Doomed name)
    (next : Progress → Except UsageError Progress) :
    ∃ error, (progress.settle >>= next) = .error error := by
  obtain ⟨error, hsettle⟩ := hdoomed.settle
  rw [hsettle]
  exact ⟨error, rfl⟩

theorem Progress.Doomed.positional (hdoomed : progress.Doomed name) (argument : String) :
    ∃ error, progress.positional argument = .error error := by
  unfold Progress.positional
  split
  · exact ⟨_, rfl⟩
  · exact hdoomed.settle_bind _

theorem Progress.Doomed.flag (hdoomed : progress.Doomed name) (other : String) :
    ∃ error, progress.flag other = .error error :=
  hdoomed.settle_bind _

theorem Progress.Doomed.named (hdoomed : progress.Doomed name) (form : Form)
    (argument : List Char) : ∃ error, progress.named form argument = .error error := by
  unfold Progress.named
  dsimp only
  split
  · exact ⟨_, rfl⟩
  · split
    · exact hdoomed.flag _
    · exact ⟨_, rfl⟩
    · exact hdoomed.settle_bind _
    · exact hdoomed.settle_bind _

/-- A reading that has failed, or will fail because a second value for the name is pending. -/
inductive Failing (name : String) : Except UsageError Progress → Prop where
  | failed (error : UsageError) : Failing name (.error error)
  | doomed {progress : Progress} (hdoomed : progress.Doomed name) : Failing name (.ok progress)

theorem failing_of_error {result : Except UsageError Progress}
    (herror : ∃ error, result = .error error) : Failing name result := by
  obtain ⟨error, rfl⟩ := herror
  exact .failed error

theorem Progress.Doomed.letters (hdoomed : progress.Doomed name) (form : Form)
    (letters : List Char) : Failing name (Progress.letters form letters progress) := by
  cases letters with
  | nil => exact .doomed hdoomed
  | cons letter rest =>
    unfold Progress.letters
    dsimp only
    split
    · rename_i parameter _
      obtain ⟨error, hflag⟩ := hdoomed.flag parameter.name
      rw [hflag]
      exact .failed error
    · exact .failed _

theorem Progress.Doomed.plain (hdoomed : progress.Doomed name) (argument : String) :
    Failing name (progress.plain argument) := by
  obtain ⟨shape, written, hpending⟩ := hdoomed.pending
  unfold Progress.plain
  rw [hpending]
  cases written with
  | none => exact .doomed ⟨⟨shape, some argument, rfl⟩, hdoomed.given⟩
  | some written => exact failing_of_error (hdoomed.positional argument)

theorem Progress.Doomed.argument (hdoomed : progress.Doomed name) (form : Form)
    (argument : String) : Failing name (progress.argument form argument) := by
  unfold Progress.argument
  by_cases honly : progress.onlyPositions = true
  · rw [if_pos honly]
    exact failing_of_error (hdoomed.positional argument)
  · rw [if_neg honly]
    split
    · exact .doomed ⟨hdoomed.pending, hdoomed.given⟩
    · exact failing_of_error (hdoomed.named form _)
    · exact hdoomed.plain argument
    · exact hdoomed.letters form _
    · exact hdoomed.plain argument

/-- A reading that is bound to fail does so in the end. -/
theorem Failing.run {result : Except UsageError Progress} (hfailing : Failing name result)
    (form : Form) (arguments : List String) :
    ∃ error, (result >>= fun progress ↦
      arguments.foldlM (Progress.argument form) progress >>= Progress.settle) = .error error := by
  induction arguments generalizing result with
  | nil =>
    cases hfailing with
    | failed error => exact ⟨error, rfl⟩
    | doomed hdoomed => exact hdoomed.settle
  | cons argument rest ih =>
    cases hfailing with
    | failed error => exact ⟨error, rfl⟩
    | @doomed progress hdoomed =>
      obtain ⟨error, hrest⟩ := ih (hdoomed.argument form argument)
      refine ⟨error, ?_⟩
      rw [← hrest]
      simp only [List.foldlM_cons, bind_assoc]
      rfl

end Reading

/-! ### A form with one parameter more -/

/-- A form with one more named parameter. -/
def Form.extend (form : Form) (extra : Parameter) : Form :=
  { form with parameters := form.parameters ++ [extra] }

/-- A parameter that can be added to a form: it takes a value and is known by its name only, which
is not taken. -/
structure Form.Admits (form : Form) (extra : Parameter) : Prop where
  shape : extra.shape.isSome = true
  letter : extra.letter = none
  parameters : ∀ parameter ∈ helpFlag :: form.parameters, parameter.name ≠ extra.name
  positions : ∀ position ∈ form.positions, position.name ≠ extra.name

section Extension

variable {form : Form} {extra : Parameter} {value : Value} {progress : Progress}

theorem find?_extend (choose : Parameter → Bool) :
    (helpFlag :: (form.extend extra).parameters).find? choose =
      ((helpFlag :: form.parameters).find? choose).or ([extra].find? choose) := by
  rw [← List.find?_append]
  rfl

theorem find?_letter_extend (hadmits : form.Admits extra) (letter : Char) :
    (helpFlag :: (form.extend extra).parameters).find?
        (fun parameter ↦ parameter.letter == some letter) =
      (helpFlag :: form.parameters).find? (fun parameter ↦ parameter.letter == some letter) := by
  rw [find?_extend]
  simp [hadmits.letter]

theorem find?_name_extend {name : String} (hname : name ≠ extra.name) :
    (helpFlag :: (form.extend extra).parameters).find? (fun parameter ↦ parameter.name == name) =
      (helpFlag :: form.parameters).find? (fun parameter ↦ parameter.name == name) := by
  rw [find?_extend]
  simp [Ne.symm hname]

theorem find?_name_extend_self (hadmits : form.Admits extra) :
    (helpFlag :: form.parameters).find? (fun parameter ↦ parameter.name == extra.name) = none ∧
      (helpFlag :: (form.extend extra).parameters).find?
        (fun parameter ↦ parameter.name == extra.name) = some extra := by
  have hnone : (helpFlag :: form.parameters).find?
      (fun parameter ↦ parameter.name == extra.name) = none := by
    rw [List.find?_eq_none]
    intro parameter hparameter
    simpa using hadmits.parameters parameter hparameter
  refine ⟨hnone, ?_⟩
  rw [find?_extend, hnone]
  simp

theorem abreast_letters (hadmits : form.Admits extra) (letters : List Char)
    (hclear : progress.Clear extra.name) :
    Abreast extra.name value (Progress.letters form letters progress)
      (Progress.letters (form.extend extra) letters (progress.ahead extra.name value)) := by
  induction letters generalizing progress with
  | nil => exact .both hclear
  | cons letter rest ih =>
    unfold Progress.letters
    dsimp only
    rw [find?_letter_extend hadmits]
    cases hfound : (helpFlag :: form.parameters).find? fun parameter ↦
        parameter.letter == some letter with
    | none => exact .neither _ _
    | some parameter =>
      have hname := hadmits.parameters parameter (List.mem_of_find?_eq_some hfound)
      exact (abreast_flag hname hclear).bind fun later hlater ↦ ih hlater

theorem abreast_named {argument : List Char}
    (hname : (splitAttached argument).1 ≠ extra.name) (hclear : progress.Clear extra.name) :
    Abreast extra.name value (progress.named form argument)
      ((progress.ahead extra.name value).named (form.extend extra) argument) := by
  unfold Progress.named
  dsimp only
  rw [find?_name_extend hname]
  split
  · exact .neither _ _
  · split
    · exact abreast_flag hname hclear
    · exact .neither _ _
    · exact (abreast_settle hclear).bind fun settled hsettled ↦ abreast_give hname hsettled _
    · exact (abreast_settle hclear).bind fun settled hsettled ↦ .both (hsettled.await hname)

theorem failing_settle_bind {name : String} (hclear : progress.Clear name)
    {next : Progress → Except UsageError Progress}
    (hnext : ∀ settled : Progress, Failing name (next (settled.ahead name value))) :
    Failing name ((progress.ahead name value).settle >>= next) := by
  have habreast : Abreast name value progress.settle (progress.ahead name value).settle :=
    abreast_settle hclear
  generalize progress.settle = first, (progress.ahead name value).settle = second at habreast
  cases habreast with
  | both hsettled => exact hnext _
  | neither first second => exact .failed second

/-- Naming the extra parameter again fails in both forms, in the larger one perhaps later. -/
theorem failing_named (hadmits : form.Admits extra) {argument : List Char}
    (hname : (splitAttached argument).1 = extra.name) (hclear : progress.Clear extra.name) :
    (∃ error, progress.named form argument = .error error) ∧
      Failing extra.name
        ((progress.ahead extra.name value).named (form.extend extra) argument) := by
  obtain ⟨hsmall, hlarge⟩ := find?_name_extend_self hadmits
  obtain ⟨shape, hshape⟩ := Option.isSome_iff_exists.mp hadmits.shape
  have hgiven (settled : Progress) :
      ((settled.ahead extra.name value).given.lookup extra.name).isSome = true := by
    simp [Progress.ahead]
  unfold Progress.named
  dsimp only
  rw [hname, hsmall, hlarge]
  refine ⟨⟨_, rfl⟩, ?_⟩
  dsimp only
  rw [hshape]
  cases (splitAttached argument).2 with
  | none =>
    refine failing_settle_bind hclear fun settled ↦ ?_
    exact .doomed ⟨⟨shape, none, rfl⟩, hgiven settled⟩
  | some written =>
    refine failing_settle_bind hclear fun settled ↦ failing_of_error ⟨.repeatedParameter, ?_⟩
    exact if_pos (hgiven settled)

/-- One argument keeps the two readings abreast, or makes both fail. -/
theorem abreast_argument (hadmits : form.Admits extra) (value : Value) (argument : String)
    (hclear : progress.Clear extra.name) :
    Abreast extra.name value (progress.argument form argument)
        ((progress.ahead extra.name value).argument (form.extend extra) argument) ∨
      (∃ error, progress.argument form argument = .error error) ∧
        Failing extra.name
          ((progress.ahead extra.name value).argument (form.extend extra) argument) := by
  have honlyPositions : (progress.ahead extra.name value).onlyPositions =
      progress.onlyPositions := rfl
  unfold Progress.argument
  rw [honlyPositions]
  by_cases honly : progress.onlyPositions = true
  · rw [if_pos honly, if_pos honly]
    exact Or.inl (abreast_positional argument hclear)
  · rw [if_neg honly, if_neg honly]
    split
    · exact Or.inl (.both ⟨hclear.pending, hclear.positions⟩)
    · rename_i rest _ _
      by_cases hname : (splitAttached rest).1 = extra.name
      · exact Or.inr (failing_named hadmits hname hclear)
      · exact Or.inl (abreast_named hname hclear)
    · exact Or.inl (abreast_plain argument hclear)
    · exact Or.inl (abreast_letters hadmits _ hclear)
    · exact Or.inl (abreast_plain argument hclear)

/-- The two readings are abreast in the end. -/
theorem abreast_arguments (hadmits : form.Admits extra) (value : Value) (arguments : List String)
    (hclear : progress.Clear extra.name) :
    Abreast extra.name value
      (arguments.foldlM (Progress.argument form) progress >>= Progress.settle)
      (arguments.foldlM (Progress.argument (form.extend extra))
        (progress.ahead extra.name value) >>= Progress.settle) := by
  induction arguments generalizing progress with
  | nil => exact abreast_settle hclear
  | cons argument rest ih =>
    rw [List.foldlM_cons, List.foldlM_cons, bind_assoc, bind_assoc]
    rcases abreast_argument hadmits value argument hclear with
      habreast | ⟨⟨error, hsmall⟩, hlarge⟩
    · exact habreast.bind fun later hlater ↦ ih hlater
    · obtain ⟨second, hfailed⟩ := hlarge.run (form.extend extra) rest
      rw [hsmall, hfailed]
      exact .neither error second

end Extension

/-! ### The extra parameter in front -/

/-- Nothing has been read yet. -/
structure Progress.Untouched (progress : Progress) : Prop where
  given : progress.given = []
  pending : progress.pending = none

section Front

variable (name : String) {written : String} {shape : Shape} {value : Value} {progress : Progress}
variable (hstart : progress.Untouched) (hcheck : shape.check written = .ok value)

include hstart hcheck

theorem settle_await :
    (progress.await ⟨name, shape, some written⟩).settle = (progress.ahead name value).settle := by
  have hahead : (progress.ahead name value).settle = .ok (progress.ahead name value) := by
    unfold Progress.settle
    rw [show (progress.ahead name value).pending = none from hstart.pending]
  rw [hahead]
  simp [Progress.await, Progress.settle, Progress.give, Progress.ahead, hcheck, hstart.given,
    hstart.pending, Except.map]

theorem flag_await (other : String) :
    (progress.await ⟨name, shape, some written⟩).flag other =
      (progress.ahead name value).flag other := by
  unfold Progress.flag
  rw [settle_await name hstart hcheck]

theorem positional_await (argument : String) :
    (progress.await ⟨name, shape, some written⟩).positional argument =
      (progress.ahead name value).positional argument := by
  unfold Progress.positional
  rw [settle_await name hstart hcheck]
  rfl

theorem plain_await (argument : String) :
    (progress.await ⟨name, shape, some written⟩).plain argument =
      (progress.ahead name value).plain argument := by
  have hahead : (progress.ahead name value).plain argument =
      (progress.ahead name value).positional argument := by
    unfold Progress.plain
    rw [show (progress.ahead name value).pending = none from hstart.pending]
  rw [hahead]
  exact positional_await name hstart hcheck argument

theorem named_await (form : Form) (argument : List Char) :
    (progress.await ⟨name, shape, some written⟩).named form argument =
      (progress.ahead name value).named form argument := by
  unfold Progress.named
  simp only [settle_await name hstart hcheck, flag_await name hstart hcheck]

theorem letters_await (form : Form) (letter : Char) (rest : List Char) :
    Progress.letters form (letter :: rest) (progress.await ⟨name, shape, some written⟩) =
      Progress.letters form (letter :: rest) (progress.ahead name value) := by
  unfold Progress.letters
  simp only [flag_await name hstart hcheck]

/-- A value at the very beginning is checked by the next argument, whatever it is, unless that only
says that positions follow. -/
theorem argument_await (form : Form) (argument : String) :
    (progress.await ⟨name, shape, some written⟩).argument form argument =
        (progress.ahead name value).argument form argument ∨
      ∃ later : Progress, later.Untouched ∧
        (progress.await ⟨name, shape, some written⟩).argument form argument =
          .ok (later.await ⟨name, shape, some written⟩) ∧
        (progress.ahead name value).argument form argument = .ok (later.ahead name value) := by
  have hawait : (progress.await ⟨name, shape, some written⟩).onlyPositions =
      progress.onlyPositions := rfl
  have hahead : (progress.ahead name value).onlyPositions = progress.onlyPositions := rfl
  unfold Progress.argument
  rw [hawait, hahead]
  by_cases honly : progress.onlyPositions = true
  · rw [if_pos honly, if_pos honly]
    exact Or.inl (positional_await name hstart hcheck argument)
  · rw [if_neg honly, if_neg honly]
    split
    · exact Or.inr ⟨{ progress with onlyPositions := true }, ⟨hstart.given, hstart.pending⟩,
        rfl, rfl⟩
    · exact Or.inl (named_await name hstart hcheck form _)
    · exact Or.inl (plain_await name hstart hcheck argument)
    · rename_i letters _ _ hlone _
      cases letters with
      | nil => exact absurd rfl hlone
      | cons letter rest => exact Or.inl (letters_await name hstart hcheck form letter rest)
    · exact Or.inl (plain_await name hstart hcheck argument)

/-- A value at the very beginning may as well be checked at once. -/
theorem arguments_await (form : Form) (arguments : List String) :
    (arguments.foldlM (Progress.argument form) (progress.await ⟨name, shape, some written⟩) >>=
        Progress.settle) =
      (arguments.foldlM (Progress.argument form) (progress.ahead name value) >>=
        Progress.settle) := by
  induction arguments generalizing progress with
  | nil => exact settle_await name hstart hcheck
  | cons argument rest ih =>
    rw [List.foldlM_cons, List.foldlM_cons, bind_assoc, bind_assoc]
    rcases argument_await name hstart hcheck form argument with
      hsame | ⟨later, hlater, hawait, hahead⟩
    · rw [hsame]
    · rw [hawait, hahead]
      exact ih hlater

end Front

/-! ### Reading -/

/-- What is read in the end from the values given. -/
def Form.finish (form : Form) (settled : Progress) : Except UsageError (List (String × Value)) :=
  if form.positions.any (fun position ↦
      position.required && (settled.given.lookup position.name).isNone) then
    .error .missingParameter
  else .ok settled.given

theorem Form.read_eq (form : Form) (arguments : List String) :
    form.read arguments =
      (arguments.foldlM (Progress.argument form) { positions := form.positions } >>=
        Progress.settle) >>= form.finish := by
  rw [bind_assoc]
  rfl

theorem Form.finish_extend {form : Form} {extra : Parameter} (hadmits : form.Admits extra)
    (value : Value) (settled : Progress) :
    (form.extend extra).finish (settled.ahead extra.name value) =
      (form.finish settled).map ((extra.name, value) :: ·) := by
  have hmissing : (form.extend extra).positions.any (fun position ↦
        position.required &&
          ((settled.ahead extra.name value).given.lookup position.name).isNone) =
      form.positions.any (fun position ↦
        position.required && (settled.given.lookup position.name).isNone) := by
    rw [Bool.eq_iff_iff, List.any_eq_true, List.any_eq_true]
    refine exists_congr fun position ↦ and_congr_right fun hposition ↦ ?_
    rw [Progress.ahead, lookup_ahead (hadmits.positions position hposition)]
  unfold Form.finish
  rw [hmissing]
  split <;> rfl

/-- With the extra parameter in front the larger form reads what the smaller one reads, and both
refuse the same arguments. Assumes: the arguments in front name the extra parameter with a value
that it takes. -/
theorem Form.read_extend {form : Form} {extra : Parameter} (hadmits : form.Admits extra)
    {shape : Shape} {written : String} {value : Value} (hcheck : shape.check written = .ok value)
    {front : List String}
    (hfront : front.foldlM (Progress.argument (form.extend extra))
        ({ positions := form.positions } : Progress) =
      .ok (Progress.await { positions := form.positions } ⟨extra.name, shape, some written⟩))
    (arguments : List String) :
    (∃ given, form.read arguments = .ok given ∧
        (form.extend extra).read (front ++ arguments) = .ok ((extra.name, value) :: given)) ∨
      ∃ first second, form.read arguments = .error first ∧
        (form.extend extra).read (front ++ arguments) = .error second := by
  have hclear : ({ positions := form.positions } : Progress).Clear extra.name := by
    refine ⟨?_, hadmits.positions⟩
    intro pending hpending
    cases hpending
  have hlarge : (form.extend extra).read (front ++ arguments) =
      (arguments.foldlM (Progress.argument (form.extend extra))
        (Progress.ahead extra.name value { positions := form.positions }) >>=
          Progress.settle) >>= (form.extend extra).finish := by
    rw [Form.read_eq, List.foldlM_append, show (form.extend extra).positions = form.positions
      from rfl, hfront]
    exact congrArg (· >>= (form.extend extra).finish)
      (arguments_await extra.name ⟨rfl, rfl⟩ hcheck (form.extend extra) arguments)
  have habreast := abreast_arguments hadmits value arguments hclear
  rw [Form.read_eq, hlarge]
  generalize (arguments.foldlM (Progress.argument form)
      ({ positions := form.positions } : Progress) >>= Progress.settle) = small,
    (arguments.foldlM (Progress.argument (form.extend extra))
      (Progress.ahead extra.name value { positions := form.positions }) >>=
        Progress.settle) = large at habreast
  cases habreast with
  | neither first second => exact Or.inr ⟨first, second, rfl, rfl⟩
  | @both settled hsettled =>
    have hfinish := Form.finish_extend hadmits value settled
    cases hgiven : form.finish settled with
    | error error =>
      rw [hgiven] at hfinish
      exact Or.inr ⟨error, error, hgiven, hfinish⟩
    | ok given =>
      rw [hgiven] at hfinish
      exact Or.inl ⟨given, hgiven, hfinish⟩

/-! ### A list and a drawing of the same project -/

theorem graphForm_admits_format : graphForm.Admits formatParameter where
  shape := rfl
  letter := rfl
  parameters := by decide
  positions := by decide

/-- The format does not change what else is read. -/
theorem sharedOf_format (value : Value) (given : List (String × Value)) :
    sharedOf ((formatParameter.name, value) :: given) = sharedOf given := by
  have hpath : "path" ≠ formatParameter.name := by decide
  have hmaxNodes : "max-nodes" ≠ formatParameter.name := by decide
  have himportDepth : "import-depth" ≠ formatParameter.name := by decide
  have hlibraries : "include-libraries" ≠ formatParameter.name := by decide
  have hverbose : "verbose" ≠ formatParameter.name := by decide
  simp only [sharedOf, textGiven?, naturalGiven?, lookup_ahead, hpath, hmaxNodes, himportDepth,
    hlibraries, hverbose, ne_eq, not_false_eq_true]

theorem focus_format (value : Value) (given : List (String × Value)) :
    textGiven? ((formatParameter.name, value) :: given) "focus" = textGiven? given "focus" := by
  have hfocus : "focus" ≠ formatParameter.name := by decide
  rw [textGiven?, textGiven?, lookup_ahead hfocus]

/-- Asking for a drawing and asking for a list that programs read take the same arguments, with the
same meaning. -/
theorem ofName_graph_analyze (arguments : List String) :
    (∃ shared focus, ofName "graph" arguments = .ok (.graph shared focus) ∧
        ofName "analyze" ("--format" :: "json" :: arguments) =
          .ok (.analyze shared focus .json)) ∨
      ∃ first second, ofName "graph" arguments = .error first ∧
        ofName "analyze" ("--format" :: "json" :: arguments) = .error second := by
  have hcheck : (Shape.choice ["text", "json"]).check "json" = .ok (.text "json") := rfl
  have hfront : ["--format", "json"].foldlM (Progress.argument (graphForm.extend formatParameter))
        ({ positions := graphForm.positions } : Progress) =
      .ok (Progress.await { positions := graphForm.positions }
        ⟨formatParameter.name, .choice ["text", "json"], some "json"⟩) := by
    rfl
  have hgraphName (command : List String) : ofName "graph" command =
      (graphForm.read command).map (fun given ↦
        .graph (sharedOf given) (textGiven? given "focus")) := by
    rfl
  have hanalyzeName (command : List String) : ofName "analyze" command =
      ((graphForm.extend formatParameter).read command).map (fun given ↦
        .analyze (sharedOf given) (textGiven? given "focus") (formatOf given)) := by
    rfl
  have hwritten : "--format" :: "json" :: arguments = ["--format", "json"] ++ arguments := rfl
  rw [hgraphName, hanalyzeName, hwritten]
  rcases Form.read_extend graphForm_admits_format hcheck hfront arguments with
    ⟨given, hgraph, hanalyze⟩ | ⟨first, second, hgraph, hanalyze⟩
  · refine Or.inl ⟨sharedOf given, textGiven? given "focus", ?_, ?_⟩
    · rw [hgraph]
      rfl
    · rw [hanalyze, Except.map, sharedOf_format, focus_format]
      rfl
  · refine Or.inr ⟨first, second, ?_, ?_⟩
    · rw [hgraph]
      rfl
    · rw [hanalyze]
      rfl

/-- A program that is given the name of a command reads the rest as its arguments. -/
theorem parse?_of_mem_names {name : String} (hname : name ∈ names) (arguments : List String) :
    parse? (name :: arguments) = (ofName name arguments).map some := by
  simp only [names, List.mem_cons, List.not_mem_nil, or_false] at hname
  rcases hname with rfl | rfl | rfl | rfl <;> cases arguments <;> rfl

end ComponentGraph.Command
