import ComponentGraph.Command.Report

/-!
The table of nodes is aligned, as far as it is written.

A row is taken apart into pieces. What the table itself writes takes one column a character, and a
name takes as many columns as the measure says, whatever measure that is. The width of a column is
the largest that an entry needs (`le_widest`), so no entry needs more than its column has, and one
of them needs all of it (`exists_eq_widest`). The blanks of a row therefore make up exactly for its
entries: in all rows the counts end at one column and the files begin at another.

What the table writes is printable. A measure that gives printable characters one column each
measures every piece of a row, and the display width of text is such a measure
(`countsPlain_ofString`).

The blanks behind a name are limited (`widestFill`). A table with a name that is narrower than the
widest by more than that breaks off in front of its row (`table_eq_error`), and the program crashes
(`ending_eq_crashed_iff`); all other tables are written to their end (`table_eq_ok`).
-/

set_option autoImplicit false
set_option relaxedAutoImplicit false

namespace ComponentGraph

/-! ### Printable text and its display width -/

namespace Text.Width

/-- Whether a character is a printable one of the basic range. -/
def isPrintable (character : Char) : Bool :=
  decide (0x20 ≤ character.toNat) && decide (character.toNat ≤ 0x7E)

/-- A text of printable characters. -/
def Printable (text : String) : Prop :=
  ∀ character ∈ text.toList, isPrintable character = true

instance (text : String) : Decidable (Printable text) :=
  List.decidableBAll (isPrintable · = true) text.toList

/-- A measure that gives printable characters one column each. -/
def CountsPlain (width : String → Nat) : Prop :=
  ∀ text, Printable text → width text = text.toList.length

theorem Printable.append {first second : String} (hfirst : Printable first)
    (hsecond : Printable second) : Printable (first ++ second) := by
  rw [Printable, String.toList_append]
  exact List.forall_mem_append.mpr ⟨hfirst, hsecond⟩

theorem printable_toString (number : Nat) : Printable (toString number) := by
  rw [Printable, Nat.toString_eq_ofList_toDigits, String.toList_ofList]
  intro digit hdigit
  have hrange := Nat.isDigit_of_mem_toDigits (by decide) (by decide) hdigit
  obtain ⟨hlow, hhigh⟩ := Char.isDigit_iff_toNat.mp hrange
  have hzero : 0x20 ≤ '0'.toNat := by decide
  have hnine : '9'.toNat ≤ 0x7E := by decide
  rw [isPrintable, decide_eq_true (Nat.le_trans hzero hlow),
    decide_eq_true (Nat.le_trans hhigh hnine)]
  rfl

/-- A printable character takes one column and is drawn by itself. -/
theorem Tail.push_of_isPrintable {character : Char} (hprintable : isPrintable character = true)
    (columns : Int) :
    Tail.push character ⟨columns, .other, false⟩ = ⟨columns + 1, .other, false⟩ := by
  have hcode : character.toNat < 0x7F := by
    rw [isPrintable, Bool.and_eq_true, decide_eq_true_eq, decide_eq_true_eq] at hprintable
    omega
  have hpicture : character.toNat ≠ 0xFE0F := by omega
  have hjoiner : character.toNat ≠ 0x200D := by omega
  have hhidden : ∀ code < 0x7F, CodeRange.covers hiddenRanges code = false := by decide
  have hneighbour : ∀ code < 0x7F, Neighbour.ofCode code = .other := by decide
  have hcolumn : ofChar character = 1 := if_pos (Nat.lt_succ_of_lt hcode)
  simp [Tail.push, hpicture, hjoiner, hhidden _ hcode, ligature?, hcolumn, hneighbour _ hcode]

theorem foldr_push_of_isPrintable {characters : List Char}
    (hcharacters : ∀ character ∈ characters, isPrintable character = true) :
    characters.foldr Tail.push {} = ⟨characters.length, .other, false⟩ := by
  induction characters with
  | nil => rfl
  | cons character characters ih =>
    obtain ⟨hcharacter, hlater⟩ := List.forall_mem_cons.mp hcharacters
    rw [List.foldr_cons, ih hlater, Tail.push_of_isPrintable hcharacter]
    rfl

theorem countsPlain_ofString : CountsPlain ofString := by
  intro text htext
  rw [ofString, foldr_push_of_isPrintable htext]
  rfl

end Text.Width

theorem Text.Paint.paint_false (looks : List Look) (text : String) :
    paint false looks text = text :=
  rfl

namespace Command

open Text.Width (Printable CountsPlain printable_toString)

/-! ### Rows and their pieces -/

/-- A piece of a row: a text that the table itself makes, or the name of a node. -/
inductive Piece where
  | made (content : String)
  | name (content : String)
  deriving Repr, DecidableEq

/-- The text of a piece. -/
def Piece.text : Piece → String
  | .made content => content
  | .name content => content

/-- The columns of a piece: one a character, and for a name what the measure says. -/
def Piece.columns (width : String → Nat) : Piece → Nat
  | .made content => content.toList.length
  | .name content => width content

/-- The columns that pieces take together. -/
def totalColumns (measure : Piece → Nat) : List Piece → Nat
  | [] => 0
  | piece :: rest => measure piece + totalColumns measure rest

/-- How many digits the count of a node has. -/
def countDigits (node : Node) : Nat :=
  (toString node.usedCount).toList.length

/-- How many blanks stand in a row behind the category, behind the name and before the count. -/
structure Fill where
  kind : Nat
  name : Nat
  count : Nat
  deriving Repr, DecidableEq

namespace Fill

/-- The pieces of a row up to the count. -/
def upToCount (fill : Fill) (node : Node) : List Piece :=
  [.made (node.kind.label ++ blanks fill.kind), .made "  ", .name node.id,
    .made (blanks fill.name), .made "  ", .made (blanks fill.count ++ toString node.usedCount)]

/-- The pieces of a row before the file. -/
def upToFile (fill : Fill) (node : Node) : List Piece :=
  fill.upToCount node ++ [.made "  "]

/-- The lines for a node: its row, and the names that it depends on if there are any. -/
def lines (fill : Fill) (node : Node) : List String :=
  (String.join ((fill.upToFile node).map Piece.text) ++ node.filePath) ::
    if node.children = [] then [] else [blanks 11 ++ "-> " ++ ", ".intercalate node.children]

/-- The entries of a row, with their blanks, are as wide as the columns of a table. -/
structure Fits (width : String → Nat) (columns : Columns) (node : Node) (fill : Fill) : Prop where
  kind : node.kind.label.toList.length + fill.kind = 9
  name : width node.id + fill.name = columns.name
  count : fill.count + countDigits node = columns.count

end Fill

/-- The column at which the counts end: the entries before it and two gaps. -/
def Columns.countEnd (columns : Columns) : Nat :=
  9 + 2 + columns.name + 2 + columns.count

/-! ### The widths of the columns -/

/-- The largest of the numbers that nodes have, or `least` if there are no nodes. -/
def widest (measure : Node → Nat) (nodes : List Node) (least : Nat) : Nat :=
  ((nodes.map measure).max?).getD least

theorem le_widest (measure : Node → Nat) {nodes : List Node} {node : Node} (hnode : node ∈ nodes)
    (least : Nat) : measure node ≤ widest measure nodes least :=
  List.le_max?_getD_of_mem (List.mem_map_of_mem hnode)

theorem exists_eq_widest (measure : Node → Nat) {nodes : List Node} (hnodes : nodes ≠ [])
    (least : Nat) : ∃ node ∈ nodes, measure node = widest measure nodes least := by
  have hsome : nodes.map measure ≠ [] := mt List.map_eq_nil_iff.mp hnodes
  obtain ⟨largest, hlargest⟩ := Option.isSome_iff_exists.mp (List.isSome_max?_of_ne_nil hsome)
  obtain ⟨node, hnode, hmeasure⟩ := List.mem_map.mp (List.max?_mem hlargest)
  refine ⟨node, hnode, ?_⟩
  rw [hmeasure, widest, hlargest, Option.getD_some]

theorem columnsOf_eq (width : String → Nat) (nodes : List Node) :
    columnsOf width nodes =
      ⟨widest (fun node ↦ width node.id) nodes 0, widest countDigits nodes 1⟩ := by
  rw [columnsOf, List.foldl_max, Nat.zero_max]
  rfl

theorem name_le (width : String → Nat) {nodes : List Node} {node : Node} (hnode : node ∈ nodes) :
    width node.id ≤ (columnsOf width nodes).name := by
  rw [columnsOf_eq]
  exact le_widest (fun node ↦ width node.id) hnode 0

theorem countDigits_le (width : String → Nat) {nodes : List Node} {node : Node}
    (hnode : node ∈ nodes) : countDigits node ≤ (columnsOf width nodes).count := by
  rw [columnsOf_eq]
  exact le_widest countDigits hnode 1

theorem length_label_le (kind : Name.Kind) : kind.label.toList.length ≤ kindWidth := by
  cases kind <;> decide

/-! ### The lines of a table -/

/-- The blanks that a table puts into the row of a node. -/
def fillOf (width : String → Nat) (columns : Columns) (node : Node) : Fill where
  kind := kindWidth - node.kind.label.toList.length
  name := columns.name - width node.id
  count := columns.count - countDigits node

theorem fits_fillOf (width : String → Nat) {nodes : List Node} {node : Node}
    (hnode : node ∈ nodes) :
    (fillOf width (columnsOf width nodes) node).Fits width (columnsOf width nodes) node where
  kind := Nat.add_sub_of_le (length_label_le node.kind)
  name := Nat.add_sub_of_le (name_le width hnode)
  count := Nat.sub_add_cancel (countDigits_le width hnode)

/-- The widest name has no blanks behind it, the longest count none before it. -/
theorem exists_unfilled (width : String → Nat) {nodes : List Node} (hnodes : nodes ≠ []) :
    (∃ node ∈ nodes, (fillOf width (columnsOf width nodes) node).name = 0) ∧
      ∃ node ∈ nodes, (fillOf width (columnsOf width nodes) node).count = 0 := by
  obtain ⟨first, hfirst, hname⟩ := exists_eq_widest (fun node ↦ width node.id) hnodes 0
  obtain ⟨second, hsecond, hcount⟩ := exists_eq_widest countDigits hnodes 1
  rw [columnsOf_eq]
  exact ⟨⟨first, hfirst, Nat.sub_eq_zero_of_le (Nat.le_of_eq hname.symm)⟩,
    second, hsecond, Nat.sub_eq_zero_of_le (Nat.le_of_eq hcount.symm)⟩

theorem row_eq (width : String → Nat) (columns : Columns) (node : Node) :
    row false width columns node =
      String.join (((fillOf width columns node).upToFile node).map Piece.text) ++ node.filePath ++
        "\n" := by
  simp only [Fill.upToFile, Fill.upToCount, List.cons_append, List.nil_append, List.map_cons,
    List.map_nil, String.join_cons, String.join_nil, String.append_empty, Piece.text]
  simp only [row, kindCell, countCell, Text.Paint.paint_false, String.append_assoc]
  rfl

theorem childrenLine_eq (fill : Fill) (node : Node) :
    childrenLine false node = String.join ((fill.lines node).tail.map (· ++ "\n")) := by
  rw [childrenLine, Fill.lines, List.tail_cons]
  by_cases hchildren : node.children = []
  · rw [if_pos (List.isEmpty_iff.mpr hchildren), if_pos hchildren]
    rfl
  · rw [if_neg (mt List.isEmpty_iff.mp hchildren), if_neg hchildren]
    simp only [List.map_cons, List.map_nil, String.join_cons, String.join_nil,
      String.append_empty, String.append_assoc]
    rfl

theorem row_append_childrenLine (width : String → Nat) (columns : Columns) (node : Node) :
    row false width columns node ++ childrenLine false node =
      String.join (((fillOf width columns node).lines node).map (· ++ "\n")) := by
  rw [row_eq, childrenLine_eq (fillOf width columns node), ← String.join_cons]
  rfl

theorem join_map_flatMap {α : Type} {text : α → String} {lines : α → List String}
    {ended : String → String} (htext : ∀ item, text item = String.join ((lines item).map ended))
    (items : List α) :
    String.join (items.map text) = String.join ((items.flatMap lines).map ended) := by
  induction items with
  | nil => rfl
  | cons item items ih =>
    rw [List.map_cons, String.join_cons, htext, ih, List.flatMap_cons, List.map_append,
      String.join_append]

/-- The lines for nodes, each with its end. -/
def textOf (fills : Node → Fill) (nodes : List Node) : String :=
  String.join ((nodes.flatMap fun node ↦ (fills node).lines node).map (· ++ "\n"))

theorem rows_eq (width : String → Nat) (columns : Columns) (nodes : List Node) :
    rows false width columns nodes = textOf (fillOf width columns) nodes :=
  join_map_flatMap (row_append_childrenLine width columns) nodes

/-! ### Where a table breaks off -/

theorem canFill_eq_true_iff {width : String → Nat} {columns : Columns} {node : Node} :
    canFill width columns node = true ↔ (fillOf width columns node).name ≤ 65535 :=
  decide_eq_true_iff

theorem canFillAll_eq_true_iff {width : String → Nat} {nodes : List Node} :
    canFillAll width nodes = true ↔
      ∀ node ∈ nodes, (fillOf width (columnsOf width nodes) node).name ≤ 65535 := by
  rw [canFillAll, List.all_eq_true]
  exact forall₂_congr fun _ _ ↦ canFill_eq_true_iff

theorem canFillAll_eq_false_iff {width : String → Nat} {nodes : List Node} :
    canFillAll width nodes = false ↔
      ∃ node ∈ nodes, 65535 < (fillOf width (columnsOf width nodes) node).name := by
  rw [canFillAll, List.all_eq_false]
  refine exists_congr fun node ↦ and_congr_right fun _ ↦ ?_
  rw [canFill_eq_true_iff, Nat.not_le]

theorem table_eq_ok (colours : Bool) {width : String → Nat} {nodes : List Node}
    (hnodes : ∀ node ∈ nodes, (fillOf width (columnsOf width nodes) node).name ≤ 65535) :
    table colours width nodes = .ok (rows colours width (columnsOf width nodes) nodes) :=
  if_pos (canFillAll_eq_true_iff.mpr hnodes)

theorem table_eq_error (colours : Bool) {width : String → Nat} {nodes before after : List Node}
    {node : Node} (hnodes : nodes = before ++ node :: after)
    (hbefore : ∀ earlier ∈ before,
      (fillOf width (columnsOf width nodes) earlier).name ≤ 65535)
    (hnode : 65535 < (fillOf width (columnsOf width nodes) node).name) :
    table colours width nodes = .error (rows colours width (columnsOf width nodes) before) := by
  have hmem : node ∈ nodes := hnodes ▸ List.mem_append_right _ List.mem_cons_self
  have hstop : canFill width (columnsOf width nodes) node = false :=
    decide_eq_false (Nat.not_le_of_lt hnode)
  have hbegun : nodes.takeWhile (canFill width (columnsOf width nodes)) = before := by
    generalize columnsOf width nodes = columns at hbefore hstop
    rw [hnodes, List.takeWhile_append_of_pos fun earlier h ↦
      canFill_eq_true_iff.mpr (hbefore earlier h), List.takeWhile_cons, hstop]
    exact List.append_nil before
  rw [table, if_neg (Bool.not_eq_true _ ▸ canFillAll_eq_false_iff.mpr ⟨node, hmem, hnode⟩), hbegun]

/-- Only the listing of nodes for people can crash, and it does if a name is too narrow beside the
widest one. -/
theorem ending_eq_crashed_iff (colours verbose : Bool) (result : Result) :
    result.ending colours verbose = .crashed (report colours verbose result) ↔
      ∃ outcome, result = .listing outcome .text ∧ ∃ node ∈ outcome.nodes,
        65535 < (columnsOf Text.Width.ofString outcome.nodes).name -
          Text.Width.ofString node.id := by
  rw [Result.ending]
  cases hbreaks : result.breaksOff with
  | true =>
    refine ⟨fun _ ↦ ?_, fun _ ↦ rfl⟩
    rcases result with ⟨outcome, _ | _⟩ | _ | _
    · exact ⟨outcome, rfl, canFillAll_eq_false_iff.mp ((Bool.not_eq_true' _).mp hbreaks)⟩
    all_goals cases hbreaks
  | false =>
    refine ⟨fun hcrashed ↦ (by cases hcrashed), ?_⟩
    rintro ⟨outcome, rfl, hnode⟩
    have hall := canFillAll_eq_false_iff.mpr hnode
    rw [Result.breaksOff, hall] at hbreaks
    cases hbreaks

/-! ### The columns of a row -/

theorem length_blanks (count : Nat) : (blanks count).toList.length = count := by
  rw [blanks, String.toList_ofList, List.length_replicate]

theorem totalColumns_append (measure : Piece → Nat) (first second : List Piece) :
    totalColumns measure (first ++ second) =
      totalColumns measure first + totalColumns measure second := by
  induction first with
  | nil => rw [List.nil_append, totalColumns, Nat.zero_add]
  | cons piece first ih => rw [List.cons_append, totalColumns, ih, totalColumns, Nat.add_assoc]

namespace Fill

variable {width : String → Nat} {columns : Columns} {node : Node} {fill : Fill}

theorem Fits.totalColumns_upToCount (hfits : fill.Fits width columns node) :
    totalColumns (Piece.columns width) (fill.upToCount node) = columns.countEnd := by
  have hgap : "  ".toList.length = 2 := by decide
  have hname := hfits.name
  have hcount := hfits.count
  simp only [upToCount, totalColumns, Piece.columns, String.toList_append, List.length_append,
    length_blanks, hgap, hfits.kind, Columns.countEnd]
  rw [countDigits] at hcount
  omega

theorem Fits.totalColumns_upToFile (hfits : fill.Fits width columns node) :
    totalColumns (Piece.columns width) (fill.upToFile node) = columns.countEnd + 2 := by
  rw [upToFile, totalColumns_append, hfits.totalColumns_upToCount]
  rfl

end Fill

/-! ### Rows under a measure -/

/-- What the table writes into a piece is printable. -/
def Piece.Plain : Piece → Prop
  | .made content => Printable content
  | .name _ => True

theorem Piece.columns_eq {width : String → Nat} (hwidth : CountsPlain width) {piece : Piece}
    (hpiece : piece.Plain) : piece.columns width = width piece.text := by
  cases piece with
  | made content => exact (hwidth content hpiece).symm
  | name content => rfl

theorem totalColumns_text {width : String → Nat} (hwidth : CountsPlain width)
    {pieces : List Piece} (hpieces : ∀ piece ∈ pieces, piece.Plain) :
    totalColumns (fun piece ↦ width piece.text) pieces =
      totalColumns (Piece.columns width) pieces := by
  induction pieces with
  | nil => rfl
  | cons piece pieces ih =>
    obtain ⟨hpiece, hlater⟩ := List.forall_mem_cons.mp hpieces
    rw [totalColumns, totalColumns, ih hlater, Piece.columns_eq hwidth hpiece]

theorem printable_blanks (count : Nat) : Printable (blanks count) := by
  rw [Printable, blanks, String.toList_ofList]
  intro character hcharacter
  rw [(List.mem_replicate.mp hcharacter).2]
  rfl

theorem printable_label (kind : Name.Kind) : Printable kind.label := by
  cases kind <;> decide

theorem Fill.plain_upToFile (fill : Fill) (node : Node) :
    ∀ piece ∈ fill.upToFile node, piece.Plain := by
  have hkind := (printable_label node.kind).append (printable_blanks fill.kind)
  have hgap : Printable "  " := by decide
  have hname := printable_blanks fill.name
  have hcount := (printable_blanks fill.count).append (printable_toString node.usedCount)
  simp only [upToFile, upToCount, List.cons_append, List.nil_append, List.forall_mem_cons]
  exact ⟨hkind, hgap, trivial, hname, hgap, hcount, hgap, List.forall_mem_nil _⟩

theorem Fill.plain_upToCount (fill : Fill) (node : Node) :
    ∀ piece ∈ fill.upToCount node, piece.Plain :=
  fun piece hpiece ↦ fill.plain_upToFile node piece (List.mem_append_left _ hpiece)

/-- The table of nodes is aligned, whatever measures the names, and it is written to its end exactly
if no name is narrower than the widest one by more than 65535 columns. The lines for a node are its
row and, if there are any, the names that it depends on. No name is wider than its column, and the
blanks make up for what it is narrower; so in every row the count ends at the same column and the
file begins at the same column. This is so as well if all of the row is measured by one measure that
gives printable characters a column each. No column is wider than it has to be. A table whose blanks
are all within the limit has the lines of all nodes in order; any other ends, with a crash, in front
of the first row that is not. -/
theorem table_aligned (width : String → Nat) (nodes : List Node) :
    ∃ fills : Node → Fill,
      (∀ node ∈ nodes,
        width node.id ≤ (columnsOf width nodes).name ∧
        (fills node).Fits width (columnsOf width nodes) node ∧
        totalColumns (Piece.columns width) ((fills node).upToCount node) =
          (columnsOf width nodes).countEnd ∧
        totalColumns (Piece.columns width) ((fills node).upToFile node) =
          (columnsOf width nodes).countEnd + 2) ∧
      (CountsPlain width → ∀ node ∈ nodes,
        totalColumns (fun piece ↦ width piece.text) ((fills node).upToCount node) =
          (columnsOf width nodes).countEnd ∧
        totalColumns (fun piece ↦ width piece.text) ((fills node).upToFile node) =
          (columnsOf width nodes).countEnd + 2) ∧
      (nodes ≠ [] →
        (∃ node ∈ nodes, (fills node).name = 0) ∧ ∃ node ∈ nodes, (fills node).count = 0) ∧
      ((∀ node ∈ nodes, (fills node).name ≤ 65535) →
        table false width nodes = .ok (textOf fills nodes)) ∧
      ∀ before node after, nodes = before ++ node :: after →
        (∀ earlier ∈ before, (fills earlier).name ≤ 65535) → 65535 < (fills node).name →
        table false width nodes = .error (textOf fills before) := by
  refine ⟨fillOf width (columnsOf width nodes), ?_, ?_, exists_unfilled width, ?_, ?_⟩
  · intro node hnode
    have hfits := fits_fillOf width hnode
    exact ⟨name_le width hnode, hfits, hfits.totalColumns_upToCount, hfits.totalColumns_upToFile⟩
  · intro hwidth node hnode
    have hfits := fits_fillOf width hnode
    rw [totalColumns_text hwidth (Fill.plain_upToCount _ node),
      totalColumns_text hwidth (Fill.plain_upToFile _ node)]
    exact ⟨hfits.totalColumns_upToCount, hfits.totalColumns_upToFile⟩
  · intro hnodes
    rw [table_eq_ok false hnodes, rows_eq]
  · intro before node after hnodes hbefore hnode
    rw [table_eq_error false hnodes hbefore hnode, rows_eq]

/-- Nodes with a wide name, a name with a combining mark, and counts of one and of four digits. -/
def unevenNodes : List Node := [
  ⟨"名前Card", ["useCafe\u0301"], "src/名前.tsx", .component, 1000⟩,
  ⟨"useCafe\u0301", [], "src/cafe.ts", .hook, 7⟩]

/-- The rows of these nodes are all written, and by display width their files begin behind
twenty-seven columns. -/
theorem table_aligned_unevenNodes :
    CountsPlain Text.Width.ofString ∧
    ∃ fills : Node → Fill,
      table false Text.Width.ofString unevenNodes = .ok (textOf fills unevenNodes) ∧
      ∀ node ∈ unevenNodes,
        totalColumns (fun piece ↦ Text.Width.ofString piece.text) ((fills node).upToFile node) =
          27 := by
  have hcolumns : columnsOf Text.Width.ofString unevenNodes = ⟨8, 4⟩ := by decide +kernel
  obtain ⟨fills, hfits, hmeasured, _, hwritten, _⟩ :=
    table_aligned Text.Width.ofString unevenNodes
  rw [hcolumns] at hfits hmeasured
  have hlimit : ∀ node ∈ unevenNodes, (fills node).name ≤ 65535 := by
    intro node hnode
    have hname : _ + _ = 8 := (hfits node hnode).2.1.name
    omega
  exact ⟨Text.Width.countsPlain_ofString, fills, hwritten hlimit, fun node hnode ↦
    (hmeasured Text.Width.countsPlain_ofString node hnode).2⟩

/-- A name of so many columns, and a short one in front of it. -/
def farApart (count : Nat) : List Node := [
  ⟨"App", [], "p/App.tsx", .component, 0⟩,
  ⟨String.ofList (List.replicate count 'W'), [], "p/Wide.tsx", .component, 0⟩]

theorem width_replicate (count : Nat) :
    Text.Width.ofString (String.ofList (List.replicate count 'W')) = count := by
  have hprintable : Printable (String.ofList (List.replicate count 'W')) := by
    rw [Printable, String.toList_ofList]
    intro character hcharacter
    rw [(List.mem_replicate.mp hcharacter).2]
    rfl
  rw [Text.Width.countsPlain_ofString _ hprintable, String.toList_ofList, List.length_replicate]

theorem lt_name_farApart {count : Nat} (hcount : 65538 < count) :
    65535 < (columnsOf Text.Width.ofString (farApart count)).name - Text.Width.ofString "App" := by
  have hname : (columnsOf Text.Width.ofString (farApart count)).name =
      max (max 0 (Text.Width.ofString "App")) count := by
    rw [columnsOf, farApart, List.map_cons, List.map_cons, width_replicate]
    rfl
  have hshort : Text.Width.ofString "App" = 3 :=
    Text.Width.countsPlain_ofString _ (by decide)
  rw [hname, hshort]
  omega

/-- Nothing is written of a table in which these names are too far apart: the program crashes in
front of the first row. -/
theorem table_farApart {count : Nat} (hcount : 65538 < count) :
    table false Text.Width.ofString (farApart count) = .error "" ∧
      ∀ summary diagnostics,
        Result.ending false false (.listing ⟨farApart count, summary, diagnostics⟩ .text) =
          .crashed ⟨"", ""⟩ := by
  have htable : table false Text.Width.ofString (farApart count) = .error "" :=
    table_eq_error false (List.nil_append _).symm (List.forall_mem_nil _) (lt_name_farApart hcount)
  refine ⟨htable, fun summary diagnostics ↦ ?_⟩
  have hcrashed := (ending_eq_crashed_iff false false
    (.listing ⟨farApart count, summary, diagnostics⟩ .text)).mpr
      ⟨_, rfl, _, List.mem_cons_self, lt_name_farApart hcount⟩
  rw [hcrashed, report, tableReport, htable]

/-- With a name of 65541 columns beside one of three, no row of the table is written. -/
theorem table_broken_off :
    table false Text.Width.ofString (farApart 65541) = .error "" ∧
      Result.ending false false (.listing ⟨farApart 65541, .completed 2 2 2 0, []⟩ .text) =
        .crashed ⟨"", ""⟩ :=
  have hcrash := table_farApart (show 65538 < 65541 by decide)
  ⟨hcrash.1, hcrash.2 _ _⟩

end Command

end ComponentGraph
