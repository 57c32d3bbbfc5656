import ComponentGraph.Command.Report

/-!
Colours change nothing in a report but its colours.

What is left of a text when every sequence that sets or resets colours is taken out of it is what it
shows. A painted piece `Shows` its text and leaves no sequence open, so what it shows does not
depend on what follows; hence pieces can be compared one by one and put together again. Every line
of a report is made of painted pieces and of pieces that are the same with and without colours. The
blanks between the columns of a table are among the latter: they are counted by the bare names. A
value that is written as JSON has no colours at all, since control characters are escaped in it.
-/

set_option autoImplicit false
set_option relaxedAutoImplicit false

namespace ComponentGraph

namespace Text.Paint

/-! ### What is shown -/

/-- The characters that are shown. Those from an introducer up to the next `m` are not; `hidden`
says whether such a sequence has begun. -/
def shownFrom (hidden : Bool) : List Char → List Char
  | [] => []
  | character :: rest =>
      if hidden then shownFrom (character != 'm') rest
      else if character = introducer then shownFrom true rest
      else character :: shownFrom false rest

/-- A text without its sequences. -/
def shown (text : String) : String :=
  String.ofList (shownFrom false text.toList)

theorem introducer_not_mem_shownFrom (hidden : Bool) (characters : List Char) :
    introducer ∉ shownFrom hidden characters := by
  induction characters generalizing hidden with
  | nil => exact List.not_mem_nil
  | cons character rest ih =>
    rw [shownFrom]
    split
    · exact ih _
    · split
      · exact ih _
      · rename_i hother
        exact List.not_mem_cons_of_ne_of_not_mem (Ne.symm hother) (ih _)

theorem shownFrom_append_of_not_mem {characters : List Char} (hplain : introducer ∉ characters)
    (rest : List Char) :
    shownFrom false (characters ++ rest) = characters ++ shownFrom false rest := by
  induction characters with
  | nil => rfl
  | cons character characters ih =>
    obtain ⟨hother, hlater⟩ := List.ne_and_not_mem_of_not_mem_cons hplain
    rw [List.cons_append, shownFrom, if_neg Bool.false_ne_true, if_neg (Ne.symm hother), ih hlater,
      List.cons_append]

/-- A sequence that has begun goes on to the first `m`. -/
theorem shownFrom_sequence {body : List Char} (hbody : 'm' ∉ body) (rest : List Char) :
    shownFrom true (body ++ 'm' :: rest) = shownFrom false rest := by
  induction body with
  | nil => rfl
  | cons character body ih =>
    obtain ⟨hother, hlater⟩ := List.ne_and_not_mem_of_not_mem_cons hbody
    rw [List.cons_append, shownFrom, if_pos rfl, bne_iff_ne.mpr (Ne.symm hother), ih hlater]

/-! ### Texts without colours -/

/-- A text in which no sequence begins. -/
def Colourless (text : String) : Prop :=
  introducer ∉ text.toList

instance (text : String) : Decidable (Colourless text) :=
  inferInstanceAs (Decidable (introducer ∉ text.toList))

theorem Colourless.append {first second : String} (hfirst : Colourless first)
    (hsecond : Colourless second) : Colourless (first ++ second) := by
  rw [Colourless, String.toList_append]
  exact List.not_mem_append hfirst hsecond

theorem colourless_ofList {characters : List Char} (hplain : introducer ∉ characters) :
    Colourless (String.ofList characters) := by
  rwa [Colourless, String.toList_ofList]

theorem introducer_not_mem_replicate {filler : Char} (hfiller : introducer ≠ filler)
    (count : Nat) : introducer ∉ List.replicate count filler :=
  fun hmem ↦ hfiller (List.mem_replicate.mp hmem).2

theorem not_mem_toDigits {character : Char} (hcharacter : character.isDigit = false)
    (number : Nat) : character ∉ Nat.toDigits 10 number := by
  intro hmem
  have hdigit := Nat.isDigit_of_mem_toDigits (by decide) (by decide) hmem
  exact Bool.false_ne_true (hcharacter.symm.trans hdigit)

theorem not_mem_toString {character : Char} (hcharacter : character.isDigit = false)
    (number : Nat) : character ∉ (toString number).toList := by
  rw [Nat.toString_eq_ofList_toDigits, String.toList_ofList]
  exact not_mem_toDigits hcharacter number

theorem colourless_toString (number : Nat) : Colourless (toString number) :=
  not_mem_toString rfl number

theorem not_mem_intercalate {character : Char} {separator : String} {texts : List String}
    (hseparator : character ∉ separator.toList) (htexts : ∀ text ∈ texts, character ∉ text.toList) :
    character ∉ (separator.intercalate texts).toList := by
  rw [String.toList_intercalate]
  induction texts with
  | nil => exact List.not_mem_nil
  | cons text texts ih =>
    obtain ⟨htext, hlater⟩ := List.forall_mem_cons.mp htexts
    cases texts with
    | nil =>
      rw [List.map_cons, List.map_nil, List.intercalate_singleton]
      exact htext
    | cons next later =>
      rw [List.map_cons, List.map_cons, List.intercalate_cons_cons, ← List.map_cons]
      simp only [List.mem_append, not_or]
      exact ⟨⟨htext, hseparator⟩, ih hlater⟩

/-! ### Painted texts -/

theorem shownFrom_opening (looks : List Look) (rest : List Char) :
    shownFrom false (opening looks ++ rest) = shownFrom false rest := by
  have hcodes : 'm' ∉ (";".intercalate (looks.map (fun look ↦ toString look.code))).toList :=
    not_mem_intercalate (by decide)
      (List.forall_mem_map.mpr fun look _ ↦ not_mem_toString rfl look.code)
  have hbody := List.not_mem_cons_of_ne_of_not_mem (show 'm' ≠ '[' by decide) hcodes
  rw [opening, List.append_assoc]
  exact shownFrom_sequence hbody rest

theorem shownFrom_reset (rest : List Char) :
    shownFrom false (reset ++ rest) = shownFrom false rest :=
  shownFrom_sequence (show 'm' ∉ ['[', '0'] by decide) rest

theorem reopen_of_not_mem (looks : List Look) {characters : List Char}
    (hplain : introducer ∉ characters) : reopen looks characters = characters := by
  fun_induction reopen looks characters with
  | case1 => rfl
  | case2 rest ih => exact absurd List.mem_cons_self hplain
  | case3 character rest _ ih => rw [ih (List.not_mem_of_not_mem_cons hplain)]

/-- Whatever follows the first text, it shows the second and then what follows shows. -/
def Shows (painted plain : String) : Prop :=
  ∀ rest, shownFrom false (painted.toList ++ rest) = plain.toList ++ shownFrom false rest

theorem Shows.shown_eq {painted plain : String} (hshows : Shows painted plain) :
    shown painted = plain := by
  have hall := hshows []
  rw [List.append_nil, shownFrom, List.append_nil] at hall
  rw [shown, hall, String.ofList_toList]

theorem Colourless.shows {text : String} (htext : Colourless text) : Shows text text :=
  shownFrom_append_of_not_mem htext

theorem Shows.append {first second firstPlain secondPlain : String}
    (hfirst : Shows first firstPlain) (hsecond : Shows second secondPlain) :
    Shows (first ++ second) (firstPlain ++ secondPlain) := by
  intro rest
  rw [String.toList_append, String.toList_append, List.append_assoc, hfirst, hsecond,
    List.append_assoc]

theorem shows_join {α : Type} {painted plain : α → String} {items : List α}
    (hitems : ∀ item ∈ items, Shows (painted item) (plain item)) :
    Shows (String.join (items.map painted)) (String.join (items.map plain)) := by
  induction items with
  | nil => exact fun _ ↦ rfl
  | cons item items ih =>
    obtain ⟨hitem, hlater⟩ := List.forall_mem_cons.mp hitems
    rw [List.map_cons, List.map_cons, String.join_cons, String.join_cons]
    exact hitem.append (ih hlater)

theorem shows_paint (colours : Bool) (looks : List Look) {text : String}
    (htext : Colourless text) : Shows (paint colours looks text) text := by
  cases colours with
  | false => exact htext.shows
  | true =>
    -- The text resets nothing, so there is one sequence before it and one behind it.
    intro rest
    rw [paint, if_pos rfl, String.toList_ofList, reopen_of_not_mem looks htext, List.append_assoc,
      List.append_assoc, shownFrom_opening, shownFrom_append_of_not_mem htext, shownFrom_reset]

end Text.Paint

/-! ### Numbers and values -/

namespace Text.Decimal

open Paint

variable {style : Style} (hpoint : Colourless style.point) (hmark : Colourless style.mark)
  (hplus : Colourless style.plus) (hminus : Colourless style.minus)

include hpoint hmark hplus hminus

theorem Digits.colourless_render (digits : Digits) : Colourless (digits.render style) := by
  have hall : introducer ∉ Nat.toDigits 10 digits.whole := not_mem_toDigits rfl digits.whole
  have hkept : introducer ∉
      ((Nat.toDigits 10 digits.whole).reverse.dropWhile (fun digit ↦ digit == '0')).reverse := by
    rw [List.mem_reverse]
    exact fun hmem ↦ hall (List.mem_reverse.mp ((List.dropWhile_sublist _).mem hmem))
  have hzeros (count : Nat) : introducer ∉ List.replicate count '0' :=
    introducer_not_mem_replicate (by decide) count
  unfold Digits.render
  extract_lets all kept leading zeros before whole after fraction
  have hdropped (count : Nat) : introducer ∉ kept.drop count :=
    fun hmem ↦ hkept (List.mem_of_mem_drop hmem)
  have htaken (count : Nat) : introducer ∉ kept.take count :=
    fun hmem ↦ hkept (List.mem_of_mem_take hmem)
  split
  · split
    · have hzero : Colourless "0" := by decide
      have hfraction := colourless_ofList (List.not_mem_append (hzeros (leading.natAbs - 1)) hkept)
      exact hzero |>.append hpoint |>.append hfraction
    · have hwhole := colourless_ofList
        (List.not_mem_append (htaken before) (hzeros (before - kept.length)))
      refine hwhole |>.append hpoint |>.append (colourless_ofList ?_)
      split
      · decide
      · exact hdropped before
  · refine colourless_ofList (htaken 1) |>.append ?_ |>.append hmark |>.append ?_
      |>.append (colourless_toString _)
    · split
      · decide
      · exact hpoint.append (colourless_ofList (hdropped 1))
    · split
      · exact hminus
      · exact hplus

theorem colourless_render (value : Float) : Colourless (render style value) := by
  have hsign (condition : Prop) [Decidable condition] :
      Colourless (if condition then style.minus else "") := by
    split
    · exact hminus
    · decide
  unfold render
  extract_lets bits sign
  split
  · have hzero : Colourless "0" := by decide
    exact hsign _ |>.append hzero |>.append hpoint |>.append hzero
  · exact (hsign _).append (Digits.colourless_render hpoint hmark hplus hminus _)

end Text.Decimal

namespace Json

open Text.Paint

theorem hexCharacter_ne_introducer : ∀ digit < 16, hexCharacter digit ≠ introducer := by
  decide

/-- A control character is escaped, by letter or by number. -/
theorem introducer_not_mem_escaped (character : Char) : introducer ∉ escaped character := by
  unfold escaped
  iterate 7
    split
    · decide
  split
  · rename_i hcontrol
    have hhigh := hexCharacter_ne_introducer (character.toNat / 16) (by omega)
    have hlow := hexCharacter_ne_introducer (character.toNat % 16) (by omega)
    simp only [List.mem_cons, List.not_mem_nil, or_false, not_or]
    exact ⟨by decide, by decide, by decide, by decide, hhigh.symm, hlow.symm⟩
  · rename_i hprinted
    rw [List.mem_singleton]
    rintro rfl
    exact hprinted (by decide)

theorem colourless_quoted (text : String) : Colourless (quoted text) := by
  have hescaped : introducer ∉ text.toList.flatMap escaped := by
    rw [List.mem_flatMap]
    rintro ⟨character, _, hmem⟩
    exact introducer_not_mem_escaped character hmem
  have hquote : Colourless "\"" := by decide
  exact hquote |>.append (colourless_ofList hescaped) |>.append hquote

theorem colourless_newline (level : Nat) : Colourless (newline level) :=
  Colourless.append (by decide) (colourless_ofList (introducer_not_mem_replicate (by decide) _))

theorem colourless_whole (value : Int) : Colourless (toString value) := by
  cases value with
  | ofNat number => exact colourless_toString number
  | negSucc number => exact Colourless.append (by decide) (colourless_toString (number + 1))

mutual

/-- No sequence begins in a value that is written out. -/
theorem colourless_printAt (level : Nat) : ∀ value, Colourless (printAt level value)
  | .null => by rw [printAt]; decide
  | .boolean true => by rw [printAt]; decide
  | .boolean false => by rw [printAt]; decide
  | .whole value => by rw [printAt]; exact colourless_whole value
  | .decimal value => by
    rw [printAt]
    exact Text.Decimal.colourless_render (by decide) (by decide) (by decide) (by decide) value
  | .text value => by rw [printAt]; exact colourless_quoted value
  | .array [] => by rw [printAt]; decide
  | .array (first :: rest) => by
    have hopen : Colourless "[" := by decide
    have hclose : Colourless "]" := by decide
    rw [printAt]
    exact hopen |>.append (colourless_newline _) |>.append (colourless_printAt (level + 1) first)
      |>.append (colourless_printItems (level + 1) rest) |>.append (colourless_newline _)
      |>.append hclose
  | .object [] => by rw [printAt]; decide
  | .object ((name, first) :: rest) => by
    have hopen : Colourless "\x7b" := by decide
    have hcolon : Colourless ": " := by decide
    have hclose : Colourless "\x7d" := by decide
    rw [printAt]
    exact hopen |>.append (colourless_newline _) |>.append (colourless_quoted name)
      |>.append hcolon |>.append (colourless_printAt (level + 1) first)
      |>.append (colourless_printMembers (level + 1) rest) |>.append (colourless_newline _)
      |>.append hclose

theorem colourless_printItems (level : Nat) : ∀ items, Colourless (printItems level items)
  | [] => by rw [printItems]; decide
  | item :: rest => by
    have hcomma : Colourless "," := by decide
    rw [printItems]
    exact hcomma |>.append (colourless_newline _) |>.append (colourless_printAt level item)
      |>.append (colourless_printItems level rest)

theorem colourless_printMembers (level : Nat) : ∀ members, Colourless (printMembers level members)
  | [] => by rw [printMembers]; decide
  | (name, value) :: rest => by
    have hcomma : Colourless "," := by decide
    have hcolon : Colourless ": " := by decide
    rw [printMembers]
    exact hcomma |>.append (colourless_newline _) |>.append (colourless_quoted name)
      |>.append hcolon |>.append (colourless_printAt level value)
      |>.append (colourless_printMembers level rest)

end

theorem colourless_print (value : Json) : Colourless value.print :=
  colourless_printAt 0 value

end Json

/-! ### The texts of a result -/

/-- The texts of a node. -/
def Node.texts (node : Node) : List String :=
  node.id :: node.filePath :: node.children

/-- The texts of a diagnostic. -/
def Ledger.Diagnostic.texts (diagnostic : Ledger.Diagnostic) : List String :=
  [diagnostic.file, diagnostic.message]

/-- The texts of a summary. -/
def Project.Summary.texts : Project.Summary → List String
  | .completed .. => []
  | .failed reason => [reason]

/-- The texts of an outcome. -/
def Project.Outcome.texts (outcome : Project.Outcome) : List String :=
  outcome.nodes.flatMap Node.texts ++ outcome.summary.texts ++
    outcome.diagnostics.flatMap Ledger.Diagnostic.texts

/-- The texts of a graph. -/
def Graph.texts (graph : Graph) : List String :=
  graph.vertices.flatMap (fun vertex ↦ [vertex.id, vertex.filePath]) ++
    graph.links.flatMap (fun link ↦ [link.source, link.target])

namespace Command

/-- The texts of what a command comes to. -/
def Result.texts : Result → List String
  | .listing outcome _ => outcome.texts
  | .drawing outcome drawn => outcome.texts ++ drawn.texts
  | .configuration path _ => [path.text]

open Text.Paint

/-! ### Lines -/

theorem shows_blank : Shows " " " " :=
  Colourless.shows (by decide)

theorem shows_gap : Shows "  " "  " :=
  Colourless.shows (by decide)

theorem shows_lineEnd : Shows "\n" "\n" :=
  Colourless.shows (by decide)

theorem colourless_blanks (count : Nat) : Colourless (blanks count) :=
  colourless_ofList (introducer_not_mem_replicate (by decide) count)

theorem colourless_kindCell (kind : Name.Kind) : Colourless (kindCell kind) := by
  cases kind <;> decide

theorem shows_row (colours : Bool) (width : String → Nat) (columns : Columns) {node : Node}
    (hid : Colourless node.id) (hfile : Colourless node.filePath) :
    Shows (row colours width columns node) (row false width columns node) := by
  have hkind := shows_paint colours [kindLook node.kind] (colourless_kindCell node.kind)
  have hname := shows_paint colours [.bold] hid
  have hfill : Shows (nameFill width columns node) (nameFill width columns node) :=
    (colourless_blanks _).shows
  have hcount : Shows (countCell columns node) (countCell columns node) :=
    ((colourless_blanks _).append (colourless_toString _)).shows
  have hpath := shows_paint colours [.dimmed] hfile
  exact hkind |>.append shows_gap |>.append hname |>.append hfill |>.append shows_gap
    |>.append hcount |>.append shows_gap |>.append hpath |>.append shows_lineEnd

theorem shows_childrenLine (colours : Bool) {node : Node}
    (hchildren : ∀ child ∈ node.children, Colourless child) :
    Shows (childrenLine colours node) (childrenLine false node) := by
  unfold childrenLine
  split
  · exact Colourless.shows (by decide)
  · have hindent := (colourless_blanks (kindWidth + 2)).shows
    have harrow := shows_paint colours [.blue] (show Colourless "->" by decide)
    have hnames : Colourless (", ".intercalate node.children) :=
      not_mem_intercalate (by decide) hchildren
    exact hindent |>.append harrow |>.append shows_blank |>.append hnames.shows
      |>.append shows_lineEnd

theorem shows_rows (colours : Bool) (width : String → Nat) (columns : Columns) {nodes : List Node}
    (hnodes : ∀ node ∈ nodes, ∀ text ∈ node.texts, Colourless text) :
    Shows (rows colours width columns nodes) (rows false width columns nodes) := by
  refine shows_join fun node hnode ↦ ?_
  obtain ⟨hid, hrest⟩ := List.forall_mem_cons.mp (hnodes node hnode)
  obtain ⟨hfile, hchildren⟩ := List.forall_mem_cons.mp hrest
  exact (shows_row colours width _ hid hfile).append (shows_childrenLine colours hchildren)

theorem shows_warning (colours : Bool) : Shows (warning colours) (warning false) :=
  shows_paint colours [.bold, .yellow] (by decide)

theorem shows_diagnosticLine (colours : Bool) {diagnostic : Ledger.Diagnostic}
    (hdiagnostic : ∀ text ∈ diagnostic.texts, Colourless text) :
    Shows (diagnosticLine colours diagnostic) (diagnosticLine false diagnostic) := by
  obtain ⟨hfile, hrest⟩ := List.forall_mem_cons.mp hdiagnostic
  have hmessage := List.forall_mem_singleton.mp hrest
  have hopen : Shows " [" " [" := Colourless.shows (by decide)
  have hlabel : Colourless diagnostic.step.label := by
    cases diagnostic.step <;> decide
  have hclose : Shows "] " "] " := Colourless.shows (by decide)
  have hcolon : Shows ": " ": " := Colourless.shows (by decide)
  exact shows_warning colours |>.append hopen |>.append hlabel.shows |>.append hclose
    |>.append hfile.shows |>.append hcolon |>.append hmessage.shows |>.append shows_lineEnd

theorem shows_diagnosticLines (colours verbose : Bool) {diagnostics : List Ledger.Diagnostic}
    (hdiagnostics : ∀ diagnostic ∈ diagnostics, ∀ text ∈ diagnostic.texts, Colourless text) :
    Shows (diagnosticLines colours verbose diagnostics)
      (diagnosticLines false verbose diagnostics) := by
  unfold diagnosticLines
  split
  · exact Colourless.shows (by decide)
  · split
    · exact shows_join fun diagnostic hmem ↦
        shows_diagnosticLine colours (hdiagnostics diagnostic hmem)
    · have hcount := (colourless_toString diagnostics.length).shows
      have hproblems : Shows " problem(s) while analyzing files (use "
          " problem(s) while analyzing files (use " := Colourless.shows (by decide)
      have hswitch := shows_paint colours [.cyan] (show Colourless "-v" by decide)
      have hdetails : Shows " for details)\n" " for details)\n" := Colourless.shows (by decide)
      exact shows_warning colours |>.append shows_blank |>.append hcount |>.append hproblems
        |>.append hswitch |>.append hdetails

theorem shows_markedLine (colours : Bool) (look : Look) {mark text : String}
    (hmark : Colourless mark) (htext : Colourless text) :
    Shows (markedLine colours look mark text) (markedLine false look mark text) :=
  shows_paint colours [look] hmark |>.append shows_blank
    |>.append (shows_paint colours [look] htext) |>.append shows_lineEnd

theorem colourless_message {summary : Project.Summary}
    (hsummary : ∀ text ∈ summary.texts, Colourless text) : Colourless summary.message := by
  cases summary with
  | completed total shown =>
    have hanalyzed : Colourless "Analyzed " := by decide
    have hnumber := colourless_toString shown
    have hfunctions : Colourless " important components and functions (" := by decide
    have hof : Colourless " of " := by decide
    have hend : Colourless " shown)" := by decide
    exact hanalyzed |>.append hnumber |>.append hfunctions |>.append hnumber |>.append hof
      |>.append (colourless_toString total) |>.append hend
  | failed reason =>
    have hfailed : Colourless "Analysis failed: " := by decide
    exact hfailed.append (List.forall_mem_singleton.mp hsummary)

theorem shows_summaryLine (colours : Bool) {summary : Project.Summary}
    (hsummary : ∀ text ∈ summary.texts, Colourless text) :
    Shows (summaryLine colours summary) (summaryLine false summary) := by
  have hmessage := colourless_message hsummary
  cases summary with
  | completed => exact shows_markedLine colours .green (by decide) hmessage
  | failed => exact shows_markedLine colours .red (by decide) hmessage

/-! ### Reports -/

/-- What was written, without the sequences. -/
def Written.shown (written : Written) : Written :=
  ⟨Text.Paint.shown written.output, Text.Paint.shown written.errors⟩

theorem Written.shown_mk {output errors plainOutput plainErrors : String}
    (houtput : Shows output plainOutput) (herrors : Shows errors plainErrors) :
    Written.shown ⟨output, errors⟩ = ⟨plainOutput, plainErrors⟩ := by
  rw [Written.shown, houtput.shown_eq, herrors.shown_eq]

theorem Written.introducer_not_mem_shown (written : Written) :
    introducer ∉ written.shown.output.toList ∧ introducer ∉ written.shown.errors.toList := by
  simp only [Written.shown, Text.Paint.shown, String.toList_ofList]
  exact ⟨introducer_not_mem_shownFrom _ _, introducer_not_mem_shownFrom _ _⟩

section Outcome

variable {outcome : Project.Outcome} (houtcome : ∀ text ∈ outcome.texts, Colourless text)

include houtcome

theorem shows_outcome (colours verbose : Bool) :
    (∀ node ∈ outcome.nodes, ∀ text ∈ node.texts, Colourless text) ∧
      Shows (diagnosticLines colours verbose outcome.diagnostics)
        (diagnosticLines false verbose outcome.diagnostics) ∧
      Shows (summaryLine colours outcome.summary) (summaryLine false outcome.summary) := by
  obtain ⟨hfirst, hdiagnostics⟩ := List.forall_mem_append.mp houtcome
  obtain ⟨hnodes, hsummary⟩ := List.forall_mem_append.mp hfirst
  exact ⟨List.forall_mem_flatMap.mp hnodes,
    shows_diagnosticLines colours verbose (List.forall_mem_flatMap.mp hdiagnostics),
    shows_summaryLine colours hsummary⟩

theorem shown_machineReport (colours verbose : Bool) (value : Json) :
    (machineReport colours verbose outcome value).shown =
      machineReport false verbose outcome value := by
  obtain ⟨_, hdiagnostics, hsummary⟩ := shows_outcome houtcome colours verbose
  have hvalue : Colourless (value.print ++ "\n") :=
    (Json.colourless_print value).append (by decide)
  exact Written.shown_mk hvalue.shows (hdiagnostics.append hsummary)

theorem shown_tableReport (colours verbose : Bool) :
    (tableReport colours verbose outcome).shown = tableReport false verbose outcome := by
  obtain ⟨hnodes, hdiagnostics, hsummary⟩ := shows_outcome houtcome colours verbose
  -- Paint has no part in the widths, so both tables break off at the same row or none does.
  cases hall : canFillAll Text.Width.ofString outcome.nodes with
  | true =>
    have hrows := shows_rows colours Text.Width.ofString
      (columnsOf Text.Width.ofString outcome.nodes) hnodes
    simp only [tableReport, table, hall, if_true]
    split
    · exact Written.shown_mk hrows (hdiagnostics.append hsummary)
    · exact Written.shown_mk (hrows.append hsummary) hdiagnostics
  | false =>
    simp only [tableReport, table, hall, Bool.false_eq_true, if_false]
    refine Written.shown_mk (shows_rows colours _ _ fun node hnode ↦ ?_)
      (Colourless.shows (by decide))
    exact hnodes node ((List.takeWhile_sublist _).subset hnode)

end Outcome

theorem shown_report (colours verbose : Bool) {result : Result}
    (hresult : ∀ text ∈ result.texts, Colourless text) :
    (report colours verbose result).shown = report false verbose result := by
  have hnothing : Shows "" "" := Colourless.shows (by decide)
  cases result with
  | listing outcome format =>
    cases format with
    | text => exact shown_tableReport hresult colours verbose
    | json => exact shown_machineReport hresult colours verbose _
  | drawing outcome drawn =>
    have houtcome := (List.forall_mem_append.mp hresult).1
    exact shown_machineReport houtcome colours verbose _
  | configuration path created =>
    have hpath := List.forall_mem_singleton.mp hresult
    cases created with
    | true =>
      have hcreated : Colourless ("Created " ++ path.text) :=
        Colourless.append (by decide) hpath
      exact Written.shown_mk (shows_markedLine colours .green (by decide) hcreated) hnothing
    | false =>
      have herror := shows_paint colours [.bold, .red] (show Colourless "error:" by decide)
      have hexists : Shows " already exists\n" " already exists\n" := Colourless.shows (by decide)
      exact Written.shown_mk hnothing
        (herror |>.append shows_blank |>.append hpath.shows |>.append hexists)

/-- Colours do not change what is read: without its sequences, a report in colour is the report
without colours, in which no sequence begins. Assumes: no sequence begins in the texts of the
result. -/
theorem report_same_in_colour (result : Result) (verbose : Bool)
    (hresult : ∀ text ∈ result.texts, introducer ∉ text.toList) :
    (report true verbose result).shown = report false verbose result ∧
      introducer ∉ (report false verbose result).output.toList ∧
      introducer ∉ (report false verbose result).errors.toList := by
  have hshown := shown_report true verbose hresult
  have hplain := (report true verbose result).introducer_not_mem_shown
  rw [hshown] at hplain
  exact ⟨hshown, hplain⟩

/-- A listing with two nodes, one of which depends on the other, and a diagnostic. -/
def crowdedListing : Result :=
  .listing
    { nodes := [
        ⟨"App", ["use名"], "src/App.tsx", .component, 12⟩,
        ⟨"use名", [], "src/名.ts", .hook, 3⟩]
      summary := .completed 2 2 3 0
      diagnostics := [⟨"src/Broken.tsx", .parse, "Unexpected eof"⟩] }
    .text

theorem report_same_in_colour_crowdedListing :
    (∀ text ∈ crowdedListing.texts, introducer ∉ text.toList) ∧
      (report true true crowdedListing).errors ≠ (report false true crowdedListing).errors ∧
      (report true true crowdedListing).shown = report false true crowdedListing := by
  have htexts : ∀ text ∈ crowdedListing.texts, introducer ∉ text.toList := by decide
  exact ⟨htexts, by decide +kernel, (report_same_in_colour crowdedListing true htexts).1⟩

end Command

end ComponentGraph
