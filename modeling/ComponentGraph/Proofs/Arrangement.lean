import Mathlib.Data.List.Nodup
import Mathlib.Data.List.Perm.Subperm
import Mathlib.Tactic.SplitIfs
import ComponentGraph.Proofs.Subtree

/-!
# The places of a tree in order

A walk sorts the names in a directory, so it has to be said when one place comes before another.
Names are compared by their bytes, and places name by name (`bytewise`). Texts are ordered by their
characters; since a smaller character has smaller bytes whatever follows it (`encode_append_lt`),
the bytes of texts are in the same order (`bytes_lt_of_lt`). Places that come strictly one after the
other are what a sort makes of them (`Ascending.eq_mergeSort`).

In a tree in which no directory has a name twice, every place is listed once (`nodup_places`) and
the names in a directory come strictly one after the other (`pairwise_sortedNames`).
-/

set_option autoImplicit false
set_option relaxedAutoImplicit false

namespace ComponentGraph

/-! ### The order of bytes -/

namespace Text

/-- The bytes of a text. -/
def bytes (text : String) : List UInt8 :=
  text.toUTF8.data.toList

theorem bytes_eq (text : String) : bytes text = text.toList.flatMap String.utf8EncodeChar := by
  rw [bytes, String.toUTF8_eq_toByteArray, ← String.utf8Encode_toList, List.utf8Encode,
    List.toList_data_toByteArray]

theorem bytes_injective : Function.Injective bytes := by
  intro first second hbytes
  exact String.toByteArray_inj.mp (ByteArray.ext (Array.toList_inj.mp hbytes))

/-- Of two characters the one with the smaller bytes comes first, whatever follows them. -/
theorem encode_append_lt {first second : Char} (hless : first < second) (rest later : List UInt8) :
    String.utf8EncodeChar first ++ rest < String.utf8EncodeChar second ++ later := by
  have hvalue : first.val.toNat < second.val.toNat := hless
  have hmost : second.val.toNat < 1114112 := by
    have hvalid := second.valid
    simp only [UInt32.isValidChar, Nat.isValidChar] at hvalid
    omega
  unfold String.utf8EncodeChar
  generalize first.val.toNat = low at *
  generalize second.val.toNat = high at *
  dsimp only
  -- the number of bytes of each character decides how far the comparison goes
  split_ifs <;>
    simp only [List.cons_append, List.nil_append, List.cons_lt_cons_iff, UInt8.lt_iff_toNat_lt,
      ← UInt8.toNat_inj, UInt8.toNat_ofNat'] <;>
    simp (disch := omega) only [Nat.mod_eq_of_lt] <;>
    omega

theorem flatMap_encode_lt {first second : List Char} (hless : first < second) :
    first.flatMap String.utf8EncodeChar < second.flatMap String.utf8EncodeChar := by
  induction second generalizing first with
  | nil => exact absurd hless (List.not_lt_nil first)
  | cons character later ih =>
    cases first with
    | nil =>
      rw [List.flatMap_nil, List.flatMap_cons]
      obtain ⟨byte, rest, hbytes⟩ := List.exists_cons_of_ne_nil
        (String.utf8EncodeChar_ne_nil (c := character))
      rw [hbytes]
      exact List.nil_lt_cons _ _
    | cons other rest =>
      rw [List.flatMap_cons, List.flatMap_cons]
      rcases List.cons_lt_cons_iff.mp hless with hcharacter | ⟨rfl, hrest⟩
      · exact encode_append_lt hcharacter _ _
      · exact List.append_left_lt (ih hrest)

/-- A text that comes before another does so by its bytes. -/
theorem bytes_lt_of_lt {first second : String} (hless : first < second) :
    bytes first < bytes second := by
  rw [bytes_eq, bytes_eq]
  exact flatMap_encode_lt (String.lt_iff.mp hless)

end Text

/-! ### Places in order -/

namespace FileTree

/-- Whether a place comes before another or is the same: their names are compared one by one, by
their bytes. -/
def bytewise (first second : Location) : Bool :=
  decide (first.map Text.bytes ≤ second.map Text.bytes)

theorem bytewise_trans (first second third : Location) (hfirst : bytewise first second = true)
    (hsecond : bytewise second third = true) : bytewise first third = true :=
  decide_eq_true (List.le_trans (of_decide_eq_true hfirst) (of_decide_eq_true hsecond))

theorem bytewise_total (first second : Location) :
    (bytewise first second || bytewise second first) = true := by
  simpa [bytewise] using List.le_total (first.map Text.bytes) (second.map Text.bytes)

theorem bytewise_antisymm {first second : Location} (hfirst : bytewise first second = true)
    (hsecond : bytewise second first = true) : first = second :=
  List.map_injective_iff.mpr Text.bytes_injective
    (List.le_antisymm (of_decide_eq_true hfirst) (of_decide_eq_true hsecond))

/-- Whether places come one strictly before the other. -/
def Ascending (places : List Location) : Prop :=
  places.Pairwise fun first second ↦ first.map Text.bytes < second.map Text.bytes

theorem Ascending.nodup {places : List Location} (hascending : Ascending places) :
    places.Nodup := by
  refine List.Pairwise.imp ?_ hascending
  rintro first _ hless rfl
  exact List.lt_irrefl _ hless

/-- There is one way to put the members of a list that pass a test in order. -/
theorem Ascending.eq_mergeSort {places all : List Location} {test : Location → Bool}
    (hascending : Ascending places) (hall : all.Nodup)
    (hmem : ∀ place, place ∈ places ↔ place ∈ all ∧ test place = true) :
    places = (all.filter test).mergeSort bytewise := by
  have hperm : places.Perm (all.filter test) :=
    (List.perm_ext_iff_of_nodup hascending.nodup (hall.filter test)).mpr fun place ↦ by
      rw [hmem, List.mem_filter]
  refine (hperm.trans (List.mergeSort_perm _ bytewise).symm).eq_of_pairwise
    (fun _ _ _ _ ↦ bytewise_antisymm) ?_
    (List.pairwise_mergeSort bytewise_trans bytewise_total _)
  exact hascending.imp fun hless ↦ decide_eq_true (List.le_of_lt hless)

/-! ### Distinct names -/

namespace Entry

/-- Whether no two entries of a directory have the same name. -/
def hasDistinctNames : Entry → Bool
  | .directory entries => decide (entries.map Prod.fst).Nodup
  | _ => true

/-- Names that are distinct in an entry and in all entries below it are so at any place. -/
theorem hasDistinctNames_of_find? {entry found : Entry} {place : Location}
    (hentry : entry.hasDistinctNames = true)
    (hbelow : entry.allBelow (fun _ inner ↦ inner.hasDistinctNames) = true)
    (hfound : entry.find? place = some found) : found.hasDistinctNames = true := by
  induction place generalizing entry with
  | nil =>
    cases hfound
    exact hentry
  | cons name rest ih =>
    cases entry with
    | file content => cases hfound
    | link target => cases hfound
    | directory entries =>
      rw [find?, child?] at hfound
      cases hlookup : entries.lookup name with
      | none => simp [hlookup] at hfound
      | some next =>
        rw [allBelow, allNamed_iff] at hbelow
        obtain ⟨hnext, hrest⟩ := hbelow _ (mem_of_lookup hlookup)
        simp only [hlookup] at hfound
        exact ih hnext hrest hfound

theorem exists_of_mem_placesNamed {entries : List (String × Entry)} {place : Location}
    (hplace : place ∈ placesNamed entries) :
    ∃ named ∈ entries, ∃ rest ∈ named.2.places, place = named.1 :: rest := by
  induction entries with
  | nil => cases hplace
  | cons named later ih =>
    rw [placesNamed, List.mem_append, List.mem_map] at hplace
    rcases hplace with ⟨rest, hrest, rfl⟩ | hlater
    · exact ⟨named, List.mem_cons_self, rest, hrest, rfl⟩
    · obtain ⟨other, hother, hfound⟩ := ih hlater
      exact ⟨other, List.mem_cons_of_mem _ hother, hfound⟩

mutual

/-- With distinct names no place is listed twice. -/
theorem nodup_places (entry : Entry) (hentry : entry.hasDistinctNames = true)
    (hbelow : entry.allBelow (fun _ inner ↦ inner.hasDistinctNames) = true) :
    entry.places.Nodup := by
  cases entry with
  | file content => exact List.nodup_singleton _
  | link target => exact List.nodup_singleton _
  | directory entries =>
    rw [places, List.nodup_cons]
    refine ⟨fun hroot ↦ ?_, nodup_placesNamed entries (of_decide_eq_true hentry) hbelow⟩
    obtain ⟨named, _, rest, _, heq⟩ := exists_of_mem_placesNamed hroot
    cases heq

theorem nodup_placesNamed (entries : List (String × Entry))
    (hnames : (entries.map Prod.fst).Nodup)
    (hbelow : allNamed (fun _ inner ↦ inner.hasDistinctNames) entries = true) :
    (placesNamed entries).Nodup := by
  cases entries with
  | nil => exact List.nodup_nil
  | cons named later =>
    obtain ⟨name, entry⟩ := named
    rw [allNamed, Bool.and_eq_true, Bool.and_eq_true] at hbelow
    rw [List.map_cons, List.nodup_cons] at hnames
    rw [placesNamed, List.nodup_append]
    refine ⟨?_, nodup_placesNamed later hnames.2 hbelow.2, ?_⟩
    · exact (nodup_places entry hbelow.1.1 hbelow.1.2).map (List.cons_injective (a := name))
    · rintro first hfirst second hsecond rfl
      obtain ⟨rest, _, rfl⟩ := List.mem_map.mp hfirst
      obtain ⟨other, hother, _, _, heq⟩ := exists_of_mem_placesNamed hsecond
      obtain ⟨rfl, _⟩ := List.cons.inj heq
      exact hnames.1 (List.mem_map.mpr ⟨other, hother, rfl⟩)

end

end Entry

/-- Whether the entries of every directory of the tree have different names. -/
def isDistinctlyNamed (tree : FileTree) : Bool :=
  tree.root.hasDistinctNames && tree.root.allBelow fun _ entry ↦ entry.hasDistinctNames

theorem pairwise_mergeSort_le (names : List String) :
    (names.mergeSort fun first second ↦ decide (first ≤ second)).Pairwise (· ≤ ·) := by
  have htrans (first second third : String) (hfirst : decide (first ≤ second) = true)
      (hsecond : decide (second ≤ third) = true) : decide (first ≤ third) = true :=
    decide_eq_true (String.le_trans (of_decide_eq_true hfirst) (of_decide_eq_true hsecond))
  have htotal (first second : String) :
      (decide (first ≤ second) || decide (second ≤ first)) = true := by
    simpa using String.le_total first second
  exact (List.pairwise_mergeSort htrans htotal names).imp of_decide_eq_true

/-- The names in a directory come in order, none twice. -/
theorem pairwise_sortedNames {tree : FileTree} (hdistinct : tree.isDistinctlyNamed = true)
    (location : Location) : (sortedNames tree.root location).Pairwise (· < ·) := by
  rw [isDistinctlyNamed, Bool.and_eq_true] at hdistinct
  rw [sortedNames]
  split
  · rename_i entries hentries
    have hnames := of_decide_eq_true
      (Entry.hasDistinctNames_of_find? hdistinct.1 hdistinct.2 hentries)
    have hnodup := (List.mergeSort_perm (entries.map Prod.fst)
      fun first second ↦ decide (first ≤ second)).nodup_iff.mpr hnames
    refine ((pairwise_mergeSort_le _).and hnodup).imp fun {first second} hboth ↦ ?_
    by_contra hnot
    exact hboth.2 (String.le_antisymm hboth.1 (String.not_lt.mp hnot))
  · exact List.Pairwise.nil

theorem mem_sortedNames {root : Entry} {location : Location} {name : String} :
    name ∈ sortedNames root location ↔ (root.find? (location ++ [name])).isSome = true := by
  rw [sortedNames, Entry.find?_concat]
  cases root.find? location with
  | none => simp
  | some found =>
    cases found with
    | file content => simp [Entry.child?]
    | link target => simp [Entry.child?]
    | directory entries =>
      simp only [List.mem_mergeSort, Option.bind_some, Entry.child?]
      induction entries with
      | nil => simp
      | cons named later ih =>
        rw [List.map_cons, List.mem_cons, ih, List.lookup_cons]
        by_cases hname : name = named.1
        · simp [hname]
        · simp only [hname, beq_false_of_ne hname, false_or]

end FileTree

end ComponentGraph
