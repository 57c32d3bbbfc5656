import ComponentGraph.Proofs.Place
import ComponentGraph.Specifier
import Mathlib.Data.List.TakeWhile

/-!
Clean paths: absolute, and without a segment that does not name anything.

A text and its segments determine each other (`joinSegments_segmentsOf`, `segmentsOf_joinSegments`),
so a clean path is the same as the path of a place with proper names (`isClean_iff`). On such paths
the operations are what they should be: the key holds the names of the place, the parent is the
place above, and joining a name goes one place down.

Lexical cleaning ends with such a path wherever it starts, as long as it starts at the root and what
comes last is a name (`clean_eq_pathOf`, `isProperName_of_mem_cleanNames`). What an import stands
for always ends with the name of a source file, whatever comes before it in the specifier, so
resolving an import gives clean paths only (`isClean_of_resolve`).
-/

set_option autoImplicit false
set_option relaxedAutoImplicit false

namespace ComponentGraph

open FileTree (pathOf)

namespace Path

/-! ### Segments and texts -/

theorem no_slash_of_mem_pieces {characters piece : List Char}
    (hpiece : piece ∈ pieces characters) : '/' ∉ piece := by
  induction characters generalizing piece with
  | nil =>
    rw [pieces, List.mem_singleton] at hpiece
    rw [hpiece]
    exact List.not_mem_nil
  | cons character rest ih =>
    rw [pieces] at hpiece
    by_cases hslash : character = '/'
    · rw [if_pos hslash, List.mem_cons] at hpiece
      rcases hpiece with rfl | hlater
      · exact List.not_mem_nil
      · exact ih hlater
    · rw [if_neg hslash] at hpiece
      cases hrest : pieces rest with
      | nil => exact absurd hrest (pieces_ne_nil rest)
      | cons first later =>
        rw [hrest] at hpiece ih
        rcases List.mem_cons.mp hpiece with rfl | hlater
        · exact List.not_mem_cons_of_ne_of_not_mem (Ne.symm hslash) (ih List.mem_cons_self)
        · exact ih (List.mem_cons_of_mem first hlater)

theorem no_slash_of_mem_segmentsOf {text segment : String} (hsegment : segment ∈ segmentsOf text) :
    '/' ∉ segment.toList := by
  obtain ⟨piece, hpiece, rfl⟩ := List.mem_map.mp hsegment
  rw [String.toList_ofList]
  exact no_slash_of_mem_pieces hpiece

theorem joinSegments_cons (segment : String) {rest : List String} (hrest : rest ≠ []) :
    joinSegments (segment :: rest) = segment ++ "/" ++ joinSegments rest := by
  cases rest with
  | nil => exact absurd rfl hrest
  | cons next later => rfl

theorem joinSegments_append {first second : List String} (hfirst : first ≠ [])
    (hsecond : second ≠ []) :
    joinSegments (first ++ second) = joinSegments first ++ "/" ++ joinSegments second := by
  induction first with
  | nil => exact absurd rfl hfirst
  | cons segment rest ih =>
    by_cases hrest : rest = []
    · rw [hrest, List.singleton_append, joinSegments_cons segment hsecond, joinSegments]
    · rw [List.cons_append,
        joinSegments_cons segment (List.append_ne_nil_of_left_ne_nil hrest second), ih hrest,
        joinSegments_cons segment hrest]
      simp only [String.append_assoc]

/-- A text is its segments with slashes between them. -/
theorem joinSegments_segmentsOf (text : String) : joinSegments (segmentsOf text) = text := by
  have hpieces (characters : List Char) :
      joinSegments ((pieces characters).map String.ofList) = String.ofList characters := by
    induction characters with
    | nil => rfl
    | cons character rest ih =>
      rw [pieces]
      by_cases hslash : character = '/'
      · have hrest : (pieces rest).map String.ofList ≠ [] := by
          simpa using pieces_ne_nil rest
        rw [if_pos hslash, List.map_cons, joinSegments_cons _ hrest, ih, hslash,
          ← String.toList_inj]
        simp
      · rw [if_neg hslash]
        cases hrest : pieces rest with
        | nil => exact absurd hrest (pieces_ne_nil rest)
        | cons first later =>
          rw [hrest, List.map_cons] at ih
          dsimp only
          rw [List.map_cons]
          by_cases hlater : later = []
          · subst hlater
            have hfirst : String.ofList first = String.ofList rest := ih
            rw [String.ofList_injective hfirst]
            rfl
          · have hnonempty : later.map String.ofList ≠ [] := by simpa using hlater
            rw [joinSegments_cons _ hnonempty] at ih ⊢
            have htext := congrArg String.toList ih
            simp only [String.toList_append, String.toList_ofList] at htext
            rw [← String.toList_inj]
            simp only [String.toList_append, String.toList_ofList, List.cons_append]
            rw [← htext]
  rw [segmentsOf, hpieces, String.ofList_toList]

/-- Segments are read back from a text. Assumes: there are some, and none holds a slash. -/
theorem segmentsOf_joinSegments {segments : List String} (hsegments : segments ≠ [])
    (hslash : ∀ segment ∈ segments, '/' ∉ segment.toList) :
    segmentsOf (joinSegments segments) = segments := by
  induction segments with
  | nil => exact absurd rfl hsegments
  | cons segment rest ih =>
    obtain ⟨hhere, hlater⟩ := List.forall_mem_cons.mp hslash
    by_cases hrest : rest = []
    · subst hrest
      exact segmentsOf_of_no_slash hhere
    · rw [joinSegments_cons segment hrest, segmentsOf_append_slash, segmentsOf_of_no_slash hhere,
        ih hrest hlater, List.singleton_append]

/-! ### Proper names -/

theorem isSilent_of_isProperName {name : String} (hname : isProperName name = true) :
    isSilent name = false := by
  obtain ⟨hnonempty, hdot, _, _⟩ := isProperName_iff.mp hname
  simp [isSilent, hnonempty, hdot]

theorem no_slash_of_isProperName {name : String} (hname : isProperName name = true) :
    '/' ∉ name.toList :=
  (isProperName_iff.mp hname).2.2.2

theorem filter_silent_of_proper {names : List String}
    (hnames : ∀ name ∈ names, isProperName name = true) :
    (names.filter fun segment ↦ !isSilent segment) = names := by
  refine List.filter_eq_self.mpr fun name hname ↦ ?_
  rw [isSilent_of_isProperName (hnames name hname), Bool.not_false]

theorem text_pathOf (names : List String) : (pathOf names).text = "/" ++ joinSegments names :=
  rfl

/-- A place further down has a longer path. -/
theorem text_pathOf_append {above names : List String} (habove : above ≠ []) (hnames : names ≠ []) :
    (pathOf (above ++ names)).text = (pathOf above).text ++ "/" ++ joinSegments names := by
  rw [text_pathOf, text_pathOf, joinSegments_append habove hnames, String.append_assoc,
    String.append_assoc, String.append_assoc]

theorem segmentsOf_pathOf {names : List String} (hnonempty : names ≠ [])
    (hnames : ∀ name ∈ names, isProperName name = true) :
    segmentsOf (pathOf names).text = "" :: names := by
  have htext : (pathOf names).text = "" ++ "/" ++ joinSegments names := rfl
  rw [htext, segmentsOf_append_slash,
    segmentsOf_joinSegments hnonempty fun name hname ↦ no_slash_of_isProperName (hnames name hname)]
  rfl

theorem anchored_pathOf {names : List String} (hnonempty : names ≠ [])
    (hnames : ∀ name ∈ names, isProperName name = true) :
    (pathOf names).anchored = (.root, names) := by
  rw [anchored, segmentsOf_pathOf hnonempty hnames]
  cases names with
  | nil => exact absurd rfl hnonempty
  | cons first rest => rfl

theorem key_pathOf {names : List String} (hnames : ∀ name ∈ names, isProperName name = true) :
    (pathOf names).key = ⟨.root, names⟩ := by
  by_cases hnonempty : names = []
  · subst hnonempty
    decide
  · rw [key, anchored_pathOf hnonempty hnames, filter_silent_of_proper hnames]

theorem pathOf_injective {first second : List String}
    (hfirst : ∀ name ∈ first, isProperName name = true)
    (hsecond : ∀ name ∈ second, isProperName name = true) (hpath : pathOf first = pathOf second) :
    first = second := by
  have hkey := congrArg Path.key hpath
  rw [key_pathOf hfirst, key_pathOf hsecond] at hkey
  exact congrArg Key.names hkey

/-- The parent of a place is the place above. -/
theorem parent?_pathOf {names : List String} {name : String}
    (hnames : ∀ other ∈ names ++ [name], isProperName other = true) :
    (pathOf (names ++ [name])).parent? = some (pathOf names) := by
  obtain ⟨habove, hhere⟩ := List.forall_mem_append.mp hnames
  have hname : isSilent name = false :=
    isSilent_of_isProperName (hhere name (List.mem_singleton_self name))
  have hanchored := anchored_pathOf (List.concat_ne_nil name names) hnames
  have hkept : names.reverse.dropWhile isSilent = names.reverse := by
    rw [List.dropWhile_eq_self_iff]
    intro hlength
    have hlast := habove _ (List.mem_reverse.mp (List.getElem_mem hlength))
    rw [isSilent_of_isProperName hlast]
    exact Bool.false_ne_true
  rw [parent?, hanchored]
  dsimp only
  rw [List.reverse_append, List.reverse_singleton, List.singleton_append, List.dropWhile_cons,
    hname, if_neg Bool.false_ne_true]
  dsimp only
  rw [hkept, List.reverse_reverse]
  rfl

/-! ### Clean paths -/

/-- Whether a path is absolute and lexically clean: it starts at the root, and from there on no
segment is `.` or `..` or empty, as by a repeated slash or a slash at the end. -/
def isClean (path : Path) : Bool :=
  match segmentsOf path.text with
  | "" :: first :: rest => (first :: rest).all isProperName
  | _ => false

/-- The clean paths are those of places with proper names below the root. -/
theorem isClean_iff {path : Path} :
    path.isClean = true ↔
      ∃ names, names ≠ [] ∧ (∀ name ∈ names, isProperName name = true) ∧ path = pathOf names := by
  constructor
  · intro hclean
    rw [isClean] at hclean
    split at hclean
    · rename_i first rest hsegments
      refine ⟨first :: rest, List.cons_ne_nil _ _, List.all_eq_true.mp hclean, ?_⟩
      have htext : path.text = "/" ++ joinSegments (first :: rest) := by
        rw [← joinSegments_segmentsOf path.text, hsegments,
          joinSegments_cons "" (List.cons_ne_nil _ _), String.empty_append]
      cases path
      rw [pathOf, assemble, ← htext]
    · cases hclean
  · rintro ⟨names, hnonempty, hnames, rfl⟩
    rw [isClean, segmentsOf_pathOf hnonempty hnames]
    cases names with
    | nil => exact absurd rfl hnonempty
    | cons first rest => exact List.all_eq_true.mpr hnames

/-! ### Joining -/

/-- A path starts at the root if its text starts with a slash. -/
theorem anchor_eq_root_iff {path : Path} :
    path.key.anchor = .root ↔ Text.Search.beginsWith path.text "/" = true := by
  rw [key, anchored, Text.Search.beginsWith, List.isPrefixOf_iff_prefix]
  constructor
  · intro hroot
    split at hroot
    · rename_i first rest hsegments
      have htext : path.text = "/" ++ joinSegments (first :: rest) := by
        rw [← joinSegments_segmentsOf path.text, hsegments,
          joinSegments_cons "" (List.cons_ne_nil _ _), String.empty_append]
      rw [htext, String.toList_append]
      exact List.prefix_append _ _
    · cases hroot
    · cases hroot
  · rintro ⟨rest, hrest⟩
    have htext : path.text = "" ++ "/" ++ String.ofList rest := by
      rw [← String.toList_inj, ← hrest]
      simp
    have hempty : segmentsOf "" = [""] := rfl
    rw [htext, segmentsOf_append_slash, hempty, List.singleton_append]
    cases hsegments : segmentsOf (String.ofList rest) with
    | nil => exact absurd hsegments (segmentsOf_ne_nil _)
    | cons first later => rfl

/-- What is read from an absolute directory is absolute. -/
theorem anchor_join {directory : Path} (hroot : directory.key.anchor = .root) (path : String) :
    (directory.join path).key.anchor = .root := by
  rw [anchor_eq_root_iff] at hroot ⊢
  have hlonger (more : String) : Text.Search.beginsWith (directory.text ++ more) "/" = true := by
    rw [Text.Search.beginsWith, List.isPrefixOf_iff_prefix] at hroot ⊢
    rw [String.toList_append]
    exact hroot.trans (List.prefix_append _ _)
  rw [join]
  split
  · assumption
  · split
    · exact hlonger path
    · dsimp only
      rw [String.append_assoc]
      exact hlonger ("/" ++ path)

theorem anchor_joined {path : Path} (hroot : path.key.anchor = .root) (names : List String) :
    (FileTree.joined path names).key.anchor = .root := by
  induction names generalizing path with
  | nil => exact hroot
  | cons name rest ih => exact ih (anchor_join hroot name)

theorem names_key_join_relative (directory : Path) {path : String}
    (hrelative : Text.Search.beginsWith path "/" = false) :
    (directory.join path).key.names =
      directory.key.names ++ (segmentsOf path).filter fun segment ↦ !isSilent segment := by
  obtain ⟨before, hsegments, hbefore⟩ := exists_segmentsOf_join directory hrelative
  rw [names_key, hsegments, List.filter_append, hbefore]

theorem endsWith_slash_pathOf {names : List String} (hnonempty : names ≠ [])
    (hnames : ∀ name ∈ names, isProperName name = true) :
    Text.Search.endsWith (pathOf names).text "/" = false := by
  refine Bool.eq_false_iff.mpr fun hends ↦ ?_
  obtain ⟨front, hfront⟩ := List.isSuffixOf_iff_suffix.mp hends
  have htext : (pathOf names).text = String.ofList front ++ "/" ++ "" := by
    rw [← String.toList_inj, ← hfront]
    simp
  have hsegments := segmentsOf_pathOf hnonempty hnames
  rw [htext, segmentsOf_append_slash] at hsegments
  have hempty : segmentsOf "" = [""] := rfl
  rw [hempty, ← List.dropLast_concat_getLast hnonempty, ← List.cons_append] at hsegments
  have hlast : "" = names.getLast hnonempty :=
    List.singleton_inj.mp (List.append_inj_right' hsegments rfl)
  have hproper := hnames _ (List.getLast_mem hnonempty)
  rw [← hlast] at hproper
  exact Bool.false_ne_true hproper

/-- Joining a proper name goes one place down. -/
theorem pathOf_join {names : List String} (hnames : ∀ name ∈ names, isProperName name = true)
    {name : String} (hname : isProperName name = true) :
    (pathOf names).join name = pathOf (names ++ [name]) := by
  have hrelative := beginsWith_slash_eq_false (no_slash_of_isProperName hname)
  rw [join, if_neg (Bool.eq_false_iff.mp hrelative)]
  by_cases hnonempty : names = []
  · subst hnonempty
    rw [if_pos (by decide)]
    rfl
  · have hmore (first : String) (rest : List String) :
        joinSegments (first :: rest ++ [name]) =
          joinSegments (first :: rest) ++ "/" ++ name := by
      induction rest generalizing first with
      | nil => rfl
      | cons next later ih =>
        rw [List.cons_append, joinSegments_cons first (by simp), ih next,
          joinSegments_cons first (List.cons_ne_nil _ _)]
        simp only [String.append_assoc]
    have hnotEmpty : ((pathOf names).text == "") = false := by
      rw [beq_eq_false_iff_ne]
      intro hempty
      have hsegments := segmentsOf_pathOf hnonempty hnames
      rw [hempty] at hsegments
      cases names with
      | nil => exact hnonempty rfl
      | cons first rest => simp [segmentsOf, pieces] at hsegments
    rw [hnotEmpty, endsWith_slash_pathOf hnonempty hnames, Bool.or_false,
      if_neg Bool.false_ne_true]
    cases names with
    | nil => exact absurd rfl hnonempty
    | cons first rest =>
      have hbefore : (pathOf (first :: rest)).text = "/" ++ joinSegments (first :: rest) := rfl
      have hafter : pathOf (first :: rest ++ [name]) =
          ⟨"/" ++ joinSegments (first :: rest ++ [name])⟩ := rfl
      rw [hbefore, hafter, hmore]
      simp only [String.append_assoc]

theorem joined_pathOf {above names : List String}
    (habove : ∀ name ∈ above, isProperName name = true)
    (hnames : ∀ name ∈ names, isProperName name = true) :
    FileTree.joined (pathOf above) names = pathOf (above ++ names) := by
  induction names generalizing above with
  | nil => exact congrArg pathOf (List.append_nil above).symm
  | cons name rest ih =>
    obtain ⟨hname, hrest⟩ := List.forall_mem_cons.mp hnames
    have hstep : FileTree.joined (pathOf above) (name :: rest) =
        FileTree.joined ((pathOf above).join name) rest := rfl
    have hnext : ∀ other ∈ above ++ [name], isProperName other = true :=
      List.forall_mem_append.mpr ⟨habove, List.forall_mem_singleton.mpr hname⟩
    rw [hstep, pathOf_join habove hname, ih hnext hrest, List.append_assoc, List.singleton_append]

/-! ### Cleaning -/

/-- Cleaning a path that starts at the root gives the path of a place. -/
theorem clean_eq_pathOf {path : Path} (hroot : path.key.anchor = .root) :
    path.clean = pathOf (cleanNames .root path.key.names) := by
  rw [clean, hroot]
  rfl

/-- A name that comes last stays last. -/
theorem cleanNames_concat (anchor : Anchor) (names : List String) {name : String}
    (hname : name ≠ "..") :
    cleanNames anchor (names ++ [name]) = cleanNames anchor names ++ [name] := by
  rw [cleanNames, List.foldl_append, List.foldl_cons, List.foldl_nil, stepClean.eq_def,
    if_neg (by simpa using hname), List.reverse_cons, cleanNames]

theorem cleanNames_of_proper {names : List String}
    (hnames : ∀ name ∈ names, isProperName name = true) (anchor : Anchor) :
    cleanNames anchor names = names := by
  induction names using List.reverseRecOn with
  | nil => rfl
  | append_singleton names name ih =>
    obtain ⟨hnames, hname⟩ := List.forall_mem_append.mp hnames
    have hup := (isProperName_iff.mp (hname name List.mem_cons_self)).2.2.1
    rw [cleanNames_concat anchor names hup, ih hnames]

theorem clean_pathOf {names : List String} (hnames : ∀ name ∈ names, isProperName name = true) :
    (pathOf names).clean = pathOf names := by
  have hkey := key_pathOf hnames
  rw [clean_eq_pathOf (congrArg Key.anchor hkey), hkey, cleanNames_of_proper hnames]

/-- At the root a step of cleaning keeps proper names only: there is nothing for a `..` to stay
for. -/
theorem isProperName_of_mem_stepClean {latest : List String} {name : String}
    (hlatest : ∀ other ∈ latest, isProperName other = true)
    (hname : isSilent name = false ∧ '/' ∉ name.toList) :
    ∀ other ∈ stepClean .root latest name, isProperName other = true := by
  rw [stepClean.eq_def]
  by_cases hup : name = ".."
  · rw [if_pos (by simpa using hup)]
    cases latest with
    | nil => exact fun other hother ↦ absurd hother List.not_mem_nil
    | cons top below =>
      have htop : ¬ (top == "..") = true := by
        intro hdots
        have hproper := hlatest top List.mem_cons_self
        rw [beq_iff_eq.mp hdots] at hproper
        exact Bool.false_ne_true hproper
      dsimp only
      rw [if_neg htop]
      exact (List.forall_mem_cons.mp hlatest).2
  · rw [if_neg (by simpa using hup)]
    refine List.forall_mem_cons.mpr ⟨?_, hlatest⟩
    have hsilent := hname.1
    rw [isSilent, Bool.or_eq_false_iff, beq_eq_false_iff_ne, beq_eq_false_iff_ne] at hsilent
    exact isProperName_iff.mpr ⟨hsilent.1, hsilent.2, hup, hname.2⟩

theorem isProperName_of_mem_foldl {names latest : List String}
    (hlatest : ∀ other ∈ latest, isProperName other = true)
    (hnames : ∀ name ∈ names, isSilent name = false ∧ '/' ∉ name.toList) :
    ∀ other ∈ names.foldl (stepClean .root) latest, isProperName other = true := by
  induction names generalizing latest with
  | nil => exact hlatest
  | cons name rest ih =>
    obtain ⟨hname, hrest⟩ := List.forall_mem_cons.mp hnames
    exact ih (isProperName_of_mem_stepClean hlatest hname) hrest

theorem mem_names_key {path : Path} {name : String} (hname : name ∈ path.key.names) :
    isSilent name = false ∧ '/' ∉ name.toList := by
  rw [names_key, List.mem_filter] at hname
  exact ⟨by simpa using hname.2, no_slash_of_mem_segmentsOf hname.1⟩

theorem isProperName_of_mem_cleanNames {names : List String}
    (hnames : ∀ name ∈ names, isSilent name = false ∧ '/' ∉ name.toList) :
    ∀ name ∈ cleanNames .root names, isProperName name = true := by
  intro name hname
  rw [cleanNames, List.mem_reverse] at hname
  exact isProperName_of_mem_foldl (fun other hother ↦ absurd hother List.not_mem_nil) hnames
    name hname

/-- A path that starts at the root and ends with a name is cleaned to a clean path. -/
theorem isClean_clean {path : Path} (hroot : path.key.anchor = .root) {before : List String}
    {name : String} (hsegments : segmentsOf path.text = before ++ [name])
    (hname : isProperName name = true) : path.clean.isClean = true := by
  refine isClean_iff.mpr ⟨_, ?_, isProperName_of_mem_cleanNames fun _ ↦ mem_names_key,
    clean_eq_pathOf hroot⟩
  have hlast := (isProperName_iff.mp hname).2.2.1
  rw [names_key, hsegments, List.filter_append,
    filter_silent_of_proper (List.forall_mem_singleton.mpr hname), cleanNames_concat _ _ hlast]
  exact List.concat_ne_nil _ _

end Path

/-! ### What imports stand for -/

open ComponentGraph.Path

namespace Specifier

theorem endsWith_extension_eq_false : ∀ extension ∈ extensions, ∀ name ∈ ["", ".", ".."],
    Text.Search.endsWith name ("." ++ extension) = false := by
  decide

theorem no_slash_extension : ∀ extension ∈ extensions, '/' ∉ ("." ++ extension).toList := by
  decide

/-- A name with the extension of a source file is a proper name. -/
theorem isProperName_of_endsWith {name extension : String} (hextension : extension ∈ extensions)
    (hends : Text.Search.endsWith name ("." ++ extension) = true) (hslash : '/' ∉ name.toList) :
    isProperName name = true := by
  have hne (other : String) (hother : other ∈ ["", ".", ".."]) : name ≠ other := by
    rintro rfl
    have hrefused := endsWith_extension_eq_false extension hextension name hother
    exact Bool.false_ne_true (hrefused.symm.trans hends)
  exact isProperName_iff.mpr ⟨hne "" (by simp), hne "." (by simp), hne ".." (by simp), hslash⟩

theorem exists_extension {name : String} (hsource : hasSourceExtension name = true) :
    ∃ extension ∈ extensions, Text.Search.endsWith name ("." ++ extension) = true := by
  rw [hasSourceExtension, List.any_eq_true] at hsource
  obtain ⟨extension, hmem, hends⟩ := hsource
  exact ⟨extension, hmem, (Bool.and_eq_true_iff.mp hends).1⟩

/-- The last segment of a text with the extension of a source file is a proper name. -/
theorem exists_last_segment {text extension : String} (hextension : extension ∈ extensions)
    (hends : Text.Search.endsWith text ("." ++ extension) = true) :
    ∃ before name, segmentsOf text = before ++ [name] ∧ isProperName name = true := by
  have hsegments : segmentsOf text =
      (segmentsOf text).dropLast ++ [(segmentsOf text).getLast (segmentsOf_ne_nil text)] :=
    (List.dropLast_concat_getLast _).symm
  refine ⟨_, _, hsegments, isProperName_of_endsWith hextension ?_ ?_⟩
  · rw [← endsWith_eq_of_segments hsegments (no_slash_extension extension hextension)]
    exact hends
  · exact no_slash_of_mem_segmentsOf (List.getLast_mem _)

theorem beginsWith_slash_of_isLocal {source : String} (hlocal : isLocal source = true)
    (more : String) : Text.Search.beginsWith (source ++ more) "/" = false := by
  obtain ⟨rest, hrest⟩ := List.isPrefixOf_iff_prefix.mp hlocal
  have hdot : (source ++ more).toList = '.' :: (rest ++ more.toList) := by
    rw [String.toList_append, ← hrest]
    rfl
  rw [Text.Search.beginsWith, hdot]
  rfl

theorem endsWith_append (text pattern : String) :
    Text.Search.endsWith (text ++ pattern) pattern = true := by
  rw [Text.Search.endsWith, List.isSuffixOf_iff_suffix, String.toList_append]
  exact List.suffix_append _ _

/-- A local text with the extension of a source file, read from an absolute directory, is cleaned to
a clean path. -/
theorem isClean_clean_join {directory : Path} (hroot : directory.key.anchor = .root)
    {text extension : String} (hrelative : Text.Search.beginsWith text "/" = false)
    (hextension : extension ∈ extensions)
    (hends : Text.Search.endsWith text ("." ++ extension) = true) :
    (directory.join text).clean.isClean = true := by
  obtain ⟨before, name, hlast, hname⟩ := exists_last_segment hextension hends
  obtain ⟨above, hsegments, _⟩ := exists_segmentsOf_join directory hrelative
  rw [hlast, ← List.append_assoc] at hsegments
  exact isClean_clean (anchor_join hroot text) hsegments hname

/-- Everything that a local specifier can stand for is a clean path. Assumes: it is read from an
absolute directory. -/
theorem isClean_of_mem_candidates {directory candidate : Path}
    (hroot : directory.key.anchor = .root) {source : String} (hlocal : isLocal source = true)
    (hcandidate : candidate ∈ candidates source directory) : candidate.isClean = true := by
  rw [candidates, List.mem_append, List.mem_map, List.mem_map] at hcandidate
  rcases hcandidate with ⟨extension, hextension, rfl⟩ | ⟨extension, hextension, rfl⟩
  · refine isClean_clean_join hroot ?_ hextension ?_
    · rw [String.append_assoc]
      exact beginsWith_slash_of_isLocal hlocal _
    · rw [String.append_assoc]
      exact endsWith_append source ("." ++ extension)
  · refine isClean_clean_join (anchor_join hroot source) ?_ hextension ?_
    · revert extension
      decide
    · revert extension
      decide

/-- Resolving a local import gives a clean path. Assumes: it is read from an absolute directory. -/
theorem isClean_of_resolve {isFile : Path → Bool} {directory target : Path}
    (hroot : directory.key.anchor = .root) {source : String} (hlocal : isLocal source = true)
    (hresolve : resolve isFile source directory = some target) : target.isClean = true := by
  rw [resolve] at hresolve
  by_cases hsource : hasSourceExtension source = true
  · rw [if_pos hsource, Option.some.injEq] at hresolve
    obtain ⟨extension, hextension, hends⟩ := exists_extension hsource
    have hrelative := beginsWith_slash_of_isLocal hlocal ""
    rw [String.append_empty] at hrelative
    rw [← hresolve]
    exact isClean_clean_join hroot hrelative hextension hends
  · rw [if_neg hsource] at hresolve
    exact isClean_of_mem_candidates hroot hlocal (List.mem_of_find?_eq_some hresolve)

end Specifier

end ComponentGraph
