import ComponentGraph.FileTree.Walk
import Mathlib.Data.List.Infix

/-!
Places in a tree and the paths that lead to them.

The segments of a text are what stands between its slashes. The last of them decides how the text
ends, as long as no slash is asked for (`endsWith_eq_of_segments`). It is also the name of the file
that a path leads to: without links, only a last segment that is a name can end at a file
(`name_of_file`). A proper name that is joined to a path comes behind the names of the path
(`names_key_join`), so two files that a walk comes across have different keys unless they were
reached by the same names (`eq_of_key_of_walk`).
-/

set_option autoImplicit false
set_option relaxedAutoImplicit false

namespace ComponentGraph

/-! ### Segments -/

namespace Path

theorem pieces_ne_nil (characters : List Char) : pieces characters ≠ [] := by
  cases characters with
  | nil => exact List.cons_ne_nil _ _
  | cons character rest =>
    rw [pieces]
    split
    · exact List.cons_ne_nil _ _
    · split <;> exact List.cons_ne_nil _ _

theorem pieces_of_no_slash {characters : List Char} (hslash : '/' ∉ characters) :
    pieces characters = [characters] := by
  induction characters with
  | nil => rfl
  | cons character rest ih =>
    rw [List.mem_cons, not_or] at hslash
    rw [pieces, if_neg (Ne.symm hslash.1), ih hslash.2]

theorem pieces_append_slash (front rest : List Char) :
    pieces (front ++ '/' :: rest) = pieces front ++ pieces rest := by
  induction front with
  | nil => rfl
  | cons character front ih =>
    rw [List.cons_append, pieces, pieces, ih]
    by_cases hslash : character = '/'
    · rw [if_pos hslash, if_pos hslash, List.cons_append]
    · rw [if_neg hslash, if_neg hslash]
      cases hpieces : pieces front with
      | nil => exact absurd hpieces (pieces_ne_nil front)
      | cons piece later => rfl

/-- The last piece of characters: there is no slash, or there is a last one. -/
theorem eq_or_exists_last_slash (characters : List Char) :
    '/' ∉ characters ∨ ∃ front last, characters = front ++ '/' :: last ∧ '/' ∉ last := by
  induction characters with
  | nil => exact Or.inl List.not_mem_nil
  | cons character rest ih =>
    rcases ih with hnone | ⟨front, last, rfl, hlast⟩
    · by_cases hslash : character = '/'
      · exact Or.inr ⟨[], rest, by rw [hslash, List.nil_append], hnone⟩
      · exact Or.inl (List.not_mem_cons_of_ne_of_not_mem (Ne.symm hslash) hnone)
    · exact Or.inr ⟨character :: front, last, rfl, hlast⟩

theorem segmentsOf_ne_nil (text : String) : segmentsOf text ≠ [] := by
  rw [segmentsOf, Ne, List.map_eq_nil_iff]
  exact pieces_ne_nil _

theorem segmentsOf_of_no_slash {text : String} (hslash : '/' ∉ text.toList) :
    segmentsOf text = [text] := by
  rw [segmentsOf, pieces_of_no_slash hslash, List.map_singleton, String.ofList_toList]

theorem segmentsOf_append_slash (front rest : String) :
    segmentsOf (front ++ "/" ++ rest) = segmentsOf front ++ segmentsOf rest := by
  have htext : (front ++ "/" ++ rest).toList = front.toList ++ '/' :: rest.toList := by simp
  rw [segmentsOf, htext, pieces_append_slash, List.map_append]
  rfl

/-- The last segment of a text ends the text, after a slash if anything stands in front of it. -/
theorem toList_eq_of_segments {text name : String} {before : List String}
    (hsegments : segmentsOf text = before ++ [name]) :
    '/' ∉ name.toList ∧
      (text.toList = name.toList ∨ ∃ front, text.toList = front ++ '/' :: name.toList) := by
  rcases eq_or_exists_last_slash text.toList with hnone | ⟨front, last, htext, hlast⟩
  · have honly : [] ++ [text] = before ++ [name] :=
      (segmentsOf_of_no_slash hnone).symm.trans hsegments
    have hname : text = name := List.singleton_inj.mp (List.append_inj_right' honly rfl)
    subst hname
    exact ⟨hnone, Or.inl rfl⟩
  · have hname : String.ofList last = name := by
      rw [segmentsOf, htext, pieces_append_slash, pieces_of_no_slash hlast, List.map_append]
        at hsegments
      exact List.singleton_inj.mp (List.append_inj_right' hsegments rfl)
    subst hname
    rw [String.toList_ofList]
    exact ⟨hlast, Or.inr ⟨front, htext⟩⟩

/-- How a text ends is decided by its last segment. Assumes: no slash is asked for. -/
theorem endsWith_eq_of_segments {text name : String} {before : List String}
    (hsegments : segmentsOf text = before ++ [name]) {pattern : String}
    (hpattern : '/' ∉ pattern.toList) :
    Text.Search.endsWith text pattern = Text.Search.endsWith name pattern := by
  rw [Bool.eq_iff_iff, Text.Search.endsWith, Text.Search.endsWith, List.isSuffixOf_iff_suffix,
    List.isSuffixOf_iff_suffix]
  rcases (toList_eq_of_segments hsegments).2 with htext | ⟨front, htext⟩
  · rw [htext]
  · have hname : name.toList <:+ text.toList :=
      ⟨front ++ ['/'], by rw [htext, List.append_assoc, List.singleton_append]⟩
    constructor
    · intro hsuffix
      rcases List.suffix_or_suffix_of_suffix hsuffix hname with hshort | ⟨more, hmore⟩
      · exact hshort
      · -- a pattern that is longer than the name would hold the slash in front of it
        rcases List.eq_nil_or_concat more with rfl | ⟨earlier, character, rfl⟩
        · rw [← hmore, List.nil_append]
        · obtain ⟨rest, hrest⟩ := hsuffix
          rw [← hmore, htext, List.concat_eq_append, List.append_assoc, List.singleton_append,
            ← List.append_assoc] at hrest
          have hslash : character = '/' :=
            (List.cons.inj (List.append_inj_right' hrest rfl)).1
          refine absurd ?_ hpattern
          rw [← hmore, hslash]
          simp
    · intro hsuffix
      exact hsuffix.trans hname

/-! ### Keys -/

/-- The names of a path are its segments, without those that do not move. -/
theorem names_key (path : Path) :
    path.key.names = (segmentsOf path.text).filter fun segment ↦ !isSilent segment := by
  rw [key, anchored]
  split
  · rename_i first rest hsegments
    have hsilent : ¬ (!isSilent "") = true := by decide
    rw [hsegments, List.filter_cons_of_neg (a := "") hsilent]
  · rename_i rest hsegments
    have hsilent : ¬ (!isSilent ".") = true := by decide
    rw [hsegments, List.filter_cons_of_neg (a := ".") hsilent]
  · rfl

/-- The segments of a path that is read from a directory come after those of the directory. Assumes:
the path does not start at the root. -/
theorem exists_segmentsOf_join (directory : Path) {path : String}
    (hrelative : Text.Search.beginsWith path "/" = false) :
    ∃ before, segmentsOf (directory.join path).text = before ++ segmentsOf path ∧
      (before.filter fun segment ↦ !isSilent segment) = directory.key.names := by
  rw [names_key, join, if_neg (Bool.eq_false_iff.mp hrelative)]
  by_cases hempty : directory.text = ""
  · refine ⟨[], ?_, ?_⟩
    · rw [hempty, if_pos (by rfl), String.empty_append, List.nil_append]
    · rw [hempty]
      rfl
  · by_cases hends : Text.Search.endsWith directory.text "/" = true
    · -- the path takes the place of the empty segment behind the last slash
      obtain ⟨front, hfront⟩ := List.isSuffixOf_iff_suffix.mp hends
      have htext : directory.text = String.ofList front ++ "/" := by
        rw [← String.toList_inj, ← hfront]
        simp
      have hsegments : segmentsOf directory.text = segmentsOf (String.ofList front) ++ [""] := by
        rw [htext, ← String.append_empty (s := String.ofList front ++ "/"), segmentsOf_append_slash]
        rfl
      refine ⟨segmentsOf (String.ofList front), ?_, ?_⟩
      · rw [if_pos (by rw [hends, Bool.or_true]), htext, segmentsOf_append_slash]
      · rw [hsegments, List.filter_append]
        simp [isSilent]
    · refine ⟨segmentsOf directory.text, ?_, rfl⟩
      rw [if_neg (by simp [hempty, hends]), segmentsOf_append_slash]

/-- Whether an entry of a directory can have this name. -/
def isProperName (name : String) : Bool :=
  name != "" && name != "." && name != ".." && !name.toList.contains '/'

theorem isProperName_iff {name : String} :
    isProperName name = true ↔ name ≠ "" ∧ name ≠ "." ∧ name ≠ ".." ∧ '/' ∉ name.toList := by
  simp [isProperName, and_assoc]

theorem beginsWith_slash_eq_false {text : String} (hslash : '/' ∉ text.toList) :
    Text.Search.beginsWith text "/" = false := by
  refine Bool.eq_false_iff.mpr fun hbegins ↦ ?_
  obtain ⟨rest, hrest⟩ := List.isPrefixOf_iff_prefix.mp hbegins
  exact hslash (hrest ▸ List.mem_cons_self)

/-- A proper name that is joined to a path comes after the names of the path. -/
theorem names_key_join (directory : Path) {name : String} (hname : isProperName name = true) :
    (directory.join name).key.names = directory.key.names ++ [name] := by
  obtain ⟨hnonempty, hdot, _, hslash⟩ := isProperName_iff.mp hname
  obtain ⟨before, hsegments, hbefore⟩ :=
    exists_segmentsOf_join directory (beginsWith_slash_eq_false hslash)
  rw [names_key, hsegments, segmentsOf_of_no_slash hslash, List.filter_append, hbefore]
  simp [isSilent, hnonempty, hdot]

end Path

/-! ### Entries of a tree -/

namespace FileTree

namespace Entry

mutual

/-- Whether a test holds of all entries below an entry, each with its name. -/
def allBelow (test : String → Entry → Bool) : Entry → Bool
  | .directory entries => allNamed test entries
  | .file _ => true
  | .link _ => true

/-- Whether a test holds of named entries and of all entries below them. -/
def allNamed (test : String → Entry → Bool) : List (String × Entry) → Bool
  | [] => true
  | (name, entry) :: rest => test name entry && allBelow test entry && allNamed test rest

end

variable {test : String → Entry → Bool}

theorem allNamed_iff {entries : List (String × Entry)} :
    allNamed test entries = true ↔
      ∀ named ∈ entries, test named.1 named.2 = true ∧ allBelow test named.2 = true := by
  induction entries with
  | nil => simp [allNamed]
  | cons named rest ih => simp [allNamed, ih]

theorem mem_of_lookup {entries : List (String × Entry)} {name : String} {entry : Entry}
    (hlookup : entries.lookup name = some entry) : (name, entry) ∈ entries := by
  induction entries with
  | nil => cases hlookup
  | cons named rest ih =>
    rw [List.lookup_cons] at hlookup
    split at hlookup
    · rename_i hname
      cases hlookup
      rw [beq_iff_eq.mp hname]
      exact List.mem_cons_self
    · exact List.mem_cons_of_mem _ (ih hlookup)

/-- What holds of all entries below an entry holds of all entries below any of them. -/
theorem allBelow_of_find? {entry found : Entry} {location : Location}
    (hall : allBelow test entry = true) (hfound : entry.find? location = some found) :
    allBelow test found = true := by
  induction location generalizing entry with
  | nil =>
    cases hfound
    exact hall
  | cons name rest ih =>
    cases entry with
    | file content => cases hfound
    | link target => cases hfound
    | directory entries =>
      rw [find?, child?] at hfound
      cases hlookup : entries.lookup name with
      | none => simp [hlookup] at hfound
      | some next =>
        rw [allBelow, allNamed_iff] at hall
        simp only [hlookup] at hfound
        exact ih (hall _ (mem_of_lookup hlookup)).2 hfound

theorem find?_append (entry : Entry) (first second : Location) :
    entry.find? (first ++ second) = (entry.find? first).bind fun found ↦ found.find? second := by
  induction first generalizing entry with
  | nil => rfl
  | cons name rest ih =>
    rw [List.cons_append, find?, find?]
    cases entry.child? name with
    | none => rfl
    | some next => exact ih next

theorem find?_concat (entry : Entry) (location : Location) (name : String) :
    entry.find? (location ++ [name]) =
      (entry.find? location).bind fun found ↦ found.child? name := by
  rw [find?_append]
  congr 1
  funext found
  rw [find?]
  cases found.child? name <;> rfl

/-- Above a place there is a directory. -/
theorem exists_directory_dropLast {entry : Entry} {location : Location}
    {entries : List (String × Entry)} (hplace : entry.find? location = some (.directory entries)) :
    ∃ above, entry.find? location.dropLast = some (.directory above) := by
  rcases List.eq_nil_or_concat location with rfl | ⟨front, name, rfl⟩
  · exact ⟨entries, hplace⟩
  · rw [List.concat_eq_append, find?_concat] at hplace
    rw [List.concat_eq_append, List.dropLast_concat]
    obtain ⟨above, habove, hchild⟩ := Option.bind_eq_some_iff.mp hplace
    cases above with
    | directory named => exact ⟨named, habove⟩
    | file content => cases hchild
    | link target => cases hchild

/-- Whether the entry is a link. -/
def isLink : Entry → Bool
  | .link _ => true
  | _ => false

end Entry

/-- Whether there is no link in the tree. -/
def isLinkFree (tree : FileTree) : Bool :=
  tree.root.allBelow fun _ entry ↦ !entry.isLink

/-- Whether every name in the tree is one that an entry can have. -/
def isWellNamed (tree : FileTree) : Bool :=
  tree.root.allBelow fun name _ ↦ Path.isProperName name

/-! ### Paths that lead to files -/

/-- What following a segment can be: it is read in a directory, and there it does not move, leads to
the directory above, or is the name of an entry, which is a link that is followed or is gone on
from. -/
theorem followSegments_cons {root : Entry}
    {atLink : String → List String → Location → Except Fault Location} {segment : String}
    {rest : List String} {location target : Location}
    (hfollow : followSegments root .existing atLink (segment :: rest) location = .ok target) :
    ∃ entries, root.find? location = some (.directory entries) ∧
      (followSegments root .existing atLink rest location = .ok target ∨
        followSegments root .existing atLink rest location.dropLast = .ok target ∨
        (∃ link, entries.lookup segment = some (.link link) ∧
          atLink link rest location = .ok target) ∨
        ∃ next, entries.lookup segment = some next ∧
          followSegments root .existing atLink rest (location ++ [segment]) = .ok target) := by
  rw [followSegments] at hfollow
  split at hfollow
  · rename_i entries hentries
    refine ⟨entries, hentries, ?_⟩
    split at hfollow
    · exact Or.inl hfollow
    · split at hfollow
      · exact Or.inr (Or.inl hfollow)
      · split at hfollow
        · cases hfollow
        · split at hfollow
          · cases hfollow
          · rename_i link hlookup
            exact Or.inr (Or.inr (Or.inl ⟨link, hlookup, hfollow⟩))
          · rename_i next _ hlookup
            exact Or.inr (Or.inr (Or.inr ⟨next, hlookup, hfollow⟩))
  · cases hfollow

/-- Segments that lead to a file end with the name of the file. Assumes: there are no links, and
there are segments to follow. -/
theorem last_segment_of_file {root : Entry}
    (hfree : root.allBelow (fun _ entry ↦ !entry.isLink) = true)
    {atLink : String → List String → Location → Except Fault Location} {segments : List String}
    {location target : Location} {content : Content} (hsegments : segments ≠ [])
    (hfollow : followSegments root .existing atLink segments location = .ok target)
    (hfile : root.find? target = some (.file content)) :
    ∃ before name, segments = before ++ [name] ∧ target.getLast? = some name := by
  induction segments generalizing location with
  | nil => exact absurd rfl hsegments
  | cons segment rest ih =>
    obtain ⟨entries, hentries, hstep⟩ := followSegments_cons hfollow
    have hnolink (link : String) : entries.lookup segment ≠ some (.link link) := by
      have hnamed := Entry.allBelow_of_find? hfree hentries
      rw [Entry.allBelow, Entry.allNamed_iff] at hnamed
      exact fun hlink ↦ Bool.false_ne_true (hnamed _ (Entry.mem_of_lookup hlink)).1
    by_cases hlast : rest = []
    · -- the last segment moves, since the walk would stay in a directory otherwise
      subst hlast
      rcases hstep with hstay | hup | ⟨link, hlink, _⟩ | ⟨next, _, hdown⟩
      · cases hstay
        rw [hentries] at hfile
        cases hfile
      · cases hup
        obtain ⟨above, habove⟩ := Entry.exists_directory_dropLast hentries
        rw [habove] at hfile
        cases hfile
      · exact absurd hlink (hnolink link)
      · cases hdown
        exact ⟨[], segment, rfl, List.getLast?_concat⟩
    · have hrest : ∃ next, followSegments root .existing atLink rest next = .ok target := by
        rcases hstep with hstay | hup | ⟨link, hlink, _⟩ | ⟨_, _, hdown⟩
        · exact ⟨_, hstay⟩
        · exact ⟨_, hup⟩
        · exact absurd hlink (hnolink link)
        · exact ⟨_, hdown⟩
      obtain ⟨next, hnext⟩ := hrest
      obtain ⟨before, name, rfl, hname⟩ := ih hlast hnext
      exact ⟨segment :: before, name, rfl, hname⟩

theorem locate_eq_ok {tree : FileTree} {path : Path} {location : Location}
    (hlocate : tree.locate path = .ok location) :
    follow tree.root .existing linkLimit (Path.segmentsOf path.text)
      (startOf path.text tree.workingDirectory) = .ok location := by
  rw [locate, locateFor] at hlocate
  split at hlocate
  · cases hlocate
  · split at hlocate
    · cases hlocate
    · split at hlocate
      · cases hlocate
      · exact hlocate

/-- A path that is too long leads nowhere, and in every tree for the same reason. -/
theorem locate_of_long {path : Path} (hlong : pathLimit < path.text.utf8ByteSize) :
    ∃ fault, ∀ tree : FileTree, tree.locate path = .error fault := by
  by_cases hzero : path.text.toList.contains (Char.ofNat 0) = true
  · exact ⟨.zeroInName, fun tree ↦ if_pos hzero⟩
  · have hnonempty : path.text ≠ "" := by
      intro hempty
      rw [hempty] at hlong
      cases hlong
    refine ⟨.nameTooLong, fun tree ↦ ?_⟩
    rw [locate, locateFor, if_neg hzero, if_neg hnonempty, if_pos hlong]

/-- What a path names is at the place that it leads to. -/
theorem entry_eq_ok_iff {tree : FileTree} {path : Path} {entry : Entry} :
    tree.entry path = .ok entry ↔
      ∃ location, tree.locate path = .ok location ∧ tree.root.find? location = some entry := by
  rw [FileTree.entry]
  cases hlocate : tree.locate path with
  | error fault => simp [bind, Except.bind]
  | ok location =>
    simp only [bind, Except.bind, Except.ok.injEq, exists_eq_left']
    cases hfind : tree.root.find? location <;> simp

/-- The last segment of a path that leads to a file is the name of the file. Assumes: there are no
links. -/
theorem name_of_file {tree : FileTree} (hfree : tree.isLinkFree = true) {path : Path}
    {location : Location} (hlocate : tree.locate path = .ok location) {content : Content}
    (hfile : tree.root.find? location = some (.file content)) :
    ∃ before name, Path.segmentsOf path.text = before ++ [name] ∧
      location.getLast? = some name := by
  have hfollow := locate_eq_ok hlocate
  rw [linkLimit, follow] at hfollow
  exact last_segment_of_file hfree (Path.segmentsOf_ne_nil path.text) hfollow hfile

/-! ### Paths of a walk -/

/-- A path with names joined to it, one after the other. -/
def joined (path : Path) (names : List String) : Path :=
  names.foldl Path.join path

theorem names_key_joined (path : Path) {names : List String}
    (hnames : ∀ name ∈ names, Path.isProperName name = true) :
    (joined path names).key.names = path.key.names ++ names := by
  induction names generalizing path with
  | nil => exact (List.append_nil _).symm
  | cons name rest ih =>
    obtain ⟨hname, hrest⟩ := List.forall_mem_cons.mp hnames
    have hstep : joined path (name :: rest) = joined (path.join name) rest := rfl
    rw [hstep, ih (path.join name) hrest, Path.names_key_join path hname, List.append_assoc,
      List.singleton_append]

/-- What can be come across under a name: a file, a directory and what is found on entering it, a
link that leads nowhere, or a link to a directory that is open. -/
theorem mem_sightName {tree : FileTree} {excluded : Exclusion}
    {enter : Path → Location → List Sighting} {opened : List OpenDirectory} {path : Path}
    {location : Location} {name : String} {sighting : Sighting}
    (hsighting : sighting ∈ sightName tree excluded enter opened path location name) :
    sighting = .file (path.join name) ∨ sighting = .directory (path.join name) ∨
      (∃ place, sighting ∈ enter (path.join name) place) ∨
      (∃ fault, tree.locate (path.join name) = .error fault ∧
        sighting = .inaccessible (path.join name) fault) ∨
      ∃ target entries ancestor, tree.locate (path.join name) = .ok target ∧
        tree.root.find? target = some (.directory entries) ∧
        sighting = .loop (path.join name) ancestor := by
  have hkept {sightings : List Sighting}
      (hmem : sighting ∈ if excluded (path.join name) name = true then [] else sightings) :
      sighting ∈ sightings := by
    split at hmem
    · cases hmem
    · exact hmem
  rw [sightName] at hsighting
  split at hsighting
  · exact Or.inl (List.mem_singleton.mp (hkept hsighting))
  · rcases List.mem_cons.mp (hkept hsighting) with heq | hbelow
    · exact Or.inr (Or.inl heq)
    · exact Or.inr (Or.inr (Or.inl ⟨_, hbelow⟩))
  · split at hsighting
    · rename_i fault hlocate
      exact Or.inr (Or.inr (Or.inr (Or.inl ⟨fault, hlocate, List.mem_singleton.mp hsighting⟩)))
    · rename_i target hlocate
      split at hsighting
      · rename_i entries hentries
        split at hsighting
        · exact Or.inr (Or.inr (Or.inr (Or.inr
            ⟨target, entries, _, hlocate, hentries, List.mem_singleton.mp hsighting⟩)))
        · rcases List.mem_cons.mp (hkept hsighting) with heq | hbelow
          · exact Or.inr (Or.inl heq)
          · exact Or.inr (Or.inr (Or.inl ⟨_, hbelow⟩))
      · exact Or.inl (List.mem_singleton.mp (hkept hsighting))
  · cases hsighting

/-- What can be come across below a directory: the fault that its path is too long, or what is made
of one of its names. -/
theorem mem_walkBelow {tree : FileTree} {excluded : Exclusion} {depth : Nat}
    {opened : List OpenDirectory} {path : Path} {location : Location} {sighting : Sighting}
    (hsighting : sighting ∈ walkBelow tree excluded (depth + 1) opened path location) :
    (pathLimit < path.text.utf8ByteSize ∧ sighting = .inaccessible path .nameTooLong) ∨
      ∃ name ∈ sortedNames tree.root location,
        sighting ∈ sightName tree excluded
          (walkBelow tree excluded depth (⟨path, location⟩ :: opened))
          (⟨path, location⟩ :: opened) path location name := by
  rw [walkBelow] at hsighting
  split at hsighting
  · exact Or.inl ⟨‹_›, List.mem_singleton.mp hsighting⟩
  · exact Or.inr (List.mem_flatMap.mp hsighting)

theorem isProperName_of_mem_sortedNames {tree : FileTree} (hnames : tree.isWellNamed = true)
    {location : Location} {name : String} (hname : name ∈ sortedNames tree.root location) :
    Path.isProperName name = true := by
  rw [sortedNames] at hname
  split at hname
  · rename_i entries hentries
    rw [List.mem_mergeSort, List.mem_map] at hname
    obtain ⟨named, hnamed, rfl⟩ := hname
    have hbelow := Entry.allBelow_of_find? hnames hentries
    rw [Entry.allBelow, Entry.allNamed_iff] at hbelow
    exact (hbelow named hnamed).1
  · cases hname

theorem file_mem_walkBelow {tree : FileTree} {excluded : Exclusion} {depth : Nat}
    {opened : List OpenDirectory} {path found : Path} {location : Location}
    (hfound : .file found ∈ walkBelow tree excluded depth opened path location) :
    ∃ names, (∀ name ∈ names, ∃ place, name ∈ sortedNames tree.root place) ∧
      found = joined path names := by
  induction depth generalizing opened path location with
  | zero => cases hfound
  | succ depth ih =>
    rcases mem_walkBelow hfound with ⟨_, heq⟩ | ⟨name, hname, hsighted⟩
    · cases heq
    rcases mem_sightName hsighted with heq | heq | ⟨place, hbelow⟩ | ⟨_, _, heq⟩ |
      ⟨_, _, _, _, _, heq⟩
    · cases heq
      exact ⟨[name], List.forall_mem_singleton.mpr ⟨location, hname⟩, rfl⟩
    · cases heq
    · obtain ⟨names, hrest, rfl⟩ := ih hbelow
      exact ⟨name :: names, List.forall_mem_cons.mpr ⟨⟨location, hname⟩, hrest⟩, rfl⟩
    · cases heq
    · cases heq

/-- The path of a file that a walk comes across is the path of the walk with names of directory
entries joined to it. -/
theorem exists_joined_of_walk {tree : FileTree} {excluded : Exclusion} {start found : Path}
    (hfound : .file found ∈ tree.walk excluded start) :
    ∃ names, (∀ name ∈ names, ∃ place, name ∈ sortedNames tree.root place) ∧
      found = joined start names := by
  rw [walk] at hfound
  split at hfound
  · cases List.mem_singleton.mp hfound
  · split at hfound
    · rcases List.mem_cons.mp hfound with heq | hbelow
      · cases heq
      · exact file_mem_walkBelow hbelow
    · cases List.mem_singleton.mp hfound
      exact ⟨[], fun name hname ↦ absurd hname List.not_mem_nil, rfl⟩

theorem file_mem_walk {tree : FileTree} (hnames : tree.isWellNamed = true) {excluded : Exclusion}
    {start found : Path} (hfound : .file found ∈ tree.walk excluded start) :
    ∃ names, (∀ name ∈ names, Path.isProperName name = true) ∧ found = joined start names := by
  obtain ⟨names, hentries, hjoined⟩ := exists_joined_of_walk hfound
  refine ⟨names, fun name hname ↦ ?_, hjoined⟩
  obtain ⟨place, hplace⟩ := hentries name hname
  exact isProperName_of_mem_sortedNames hnames hplace

/-- Files that a walk comes across are told apart by their keys. -/
theorem eq_of_key_of_walk {tree : FileTree} (hnames : tree.isWellNamed = true)
    {excluded : Exclusion} {start first second : Path}
    (hfirst : .file first ∈ tree.walk excluded start)
    (hsecond : .file second ∈ tree.walk excluded start) (hkey : first.key = second.key) :
    first = second := by
  obtain ⟨firstNames, hfirstNames, rfl⟩ := file_mem_walk hnames hfirst
  obtain ⟨secondNames, hsecondNames, rfl⟩ := file_mem_walk hnames hsecond
  have hsame := congrArg Path.Key.names hkey
  rw [names_key_joined start hfirstNames, names_key_joined start hsecondNames] at hsame
  rw [List.append_cancel_left hsame]

end FileTree

end ComponentGraph
