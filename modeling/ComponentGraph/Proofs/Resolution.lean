import ComponentGraph.Proofs.CleanPath
import Mathlib.Tactic.SplitIfs

/-!
# Imports are resolved by their normal form

What an import stands for depends on where its segments lead, not on how they are written. A segment
that the next one takes back, and a segment that does not move, may be put in anywhere behind a
slash (`resolve_turn`): the names that are cleaned change, but cleaning them comes to the same
(`SameWay.clean_eq`), and the end of the specifier, which decides whether it has an extension,
stays.

Cleaning is done after one pass. In the names that it leaves, a `..` stands only where there is
nothing to take back, so a second pass finds nothing to do (`cleanNames_cleanNames`), and the text
of the result has these names for its segments (`key_clean`). Everything that an import can stand
for is spelled with an extension at the end, which cleaning keeps (`fileName?_clean_join`).
-/

set_option autoImplicit false
set_option relaxedAutoImplicit false

namespace ComponentGraph

namespace Path

/-! ### Cleaning twice -/

theorem stepClean_of_ne (anchor : Anchor) (latest : List String) {name : String}
    (hname : name ≠ "..") : stepClean anchor latest name = name :: latest := by
  rw [stepClean.eq_def, if_neg (by simpa using hname)]

/-- A step either adds the name, or leaves nothing at the root, or takes back a name. -/
theorem stepClean_cases (anchor : Anchor) (latest : List String) (name : String) :
    stepClean anchor latest name = name :: latest ∨
      (latest = [] ∧ stepClean anchor latest name = []) ∨
      ∃ top below, latest = top :: below ∧ top ≠ ".." ∧ stepClean anchor latest name = below := by
  by_cases hup : name = ".."
  · subst hup
    cases latest with
    | nil =>
      by_cases hroot : anchor = .root
      · exact Or.inr (Or.inl ⟨rfl, by simp [stepClean, hroot]⟩)
      · exact Or.inl (by simp [stepClean, hroot])
    | cons top below =>
      by_cases htop : top = ".."
      · exact Or.inl (by simp [stepClean, htop])
      · exact Or.inr (Or.inr ⟨top, below, rfl, htop, by simp [stepClean, htop]⟩)
  · exact Or.inl (stepClean_of_ne anchor latest hup)

/-- Names, latest first, that cleaning leaves as they are. -/
def Settled (anchor : Anchor) (latest : List String) : Prop :=
  latest.reverse.foldl (stepClean anchor) [] = latest

theorem Settled.step {anchor : Anchor} {latest : List String} (hsettled : Settled anchor latest)
    (name : String) : Settled anchor (stepClean anchor latest name) := by
  rcases stepClean_cases anchor latest name with
    hadd | ⟨_, hnothing⟩ | ⟨top, below, rfl, htop, hback⟩
  · rw [Settled, hadd, List.reverse_cons, List.foldl_append, hsettled, List.foldl_cons,
      List.foldl_nil, hadd]
  · rw [hnothing]
    rfl
  · rw [hback]
    rw [Settled, List.reverse_cons, List.foldl_append, List.foldl_cons, List.foldl_nil,
      stepClean_of_ne anchor _ htop] at hsettled
    exact (List.cons.inj hsettled).2

theorem Settled.foldl {anchor : Anchor} {latest : List String} (hsettled : Settled anchor latest)
    (names : List String) : Settled anchor (names.foldl (stepClean anchor) latest) := by
  induction names generalizing latest with
  | nil => exact hsettled
  | cons name rest ih => exact ih (hsettled.step name)

/-- Cleaning names that were cleaned changes nothing. -/
theorem cleanNames_cleanNames (anchor : Anchor) (names : List String) :
    cleanNames anchor (cleanNames anchor names) = cleanNames anchor names := by
  have hsettled : Settled anchor [] := rfl
  exact congrArg List.reverse (hsettled.foldl names)

/-- Only the root treats a `..` with nothing before it in a way of its own. -/
theorem cleanNames_of_ne_root {anchor : Anchor} (hanchor : anchor ≠ .root) (names : List String) :
    cleanNames anchor names = cleanNames .bare names := by
  have hstep : stepClean anchor = stepClean .bare := by
    funext latest name
    have hother : (anchor == Anchor.root) = false := beq_false_of_ne hanchor
    rw [stepClean.eq_def, stepClean.eq_def, hother]
    rfl
  rw [cleanNames, hstep, cleanNames]

theorem mem_of_mem_foldl_stepClean {anchor : Anchor} {names latest : List String} {name : String}
    (hname : name ∈ names.foldl (stepClean anchor) latest) : name ∈ latest ∨ name ∈ names := by
  induction names generalizing latest with
  | nil => exact Or.inl hname
  | cons first rest ih =>
    rcases ih hname with hstep | hrest
    · rcases stepClean_cases anchor latest first with hadd | ⟨_, hnothing⟩ | ⟨_, _, rfl, _, hback⟩
      · rw [hadd, List.mem_cons] at hstep
        rcases hstep with rfl | hlatest
        · exact Or.inr List.mem_cons_self
        · exact Or.inl hlatest
      · rw [hnothing] at hstep
        cases hstep
      · rw [hback] at hstep
        exact Or.inl (List.mem_cons_of_mem _ hstep)
    · exact Or.inr (List.mem_cons_of_mem _ hrest)

theorem mem_cleanNames {path : Path} {anchor : Anchor} {name : String}
    (hname : name ∈ cleanNames anchor path.key.names) :
    isSilent name = false ∧ '/' ∉ name.toList := by
  rw [cleanNames, List.mem_reverse] at hname
  rcases mem_of_mem_foldl_stepClean hname with hnone | hkey
  · cases hnone
  · exact mem_names_key hkey

/-- Names that move are read back from a path without anchor. -/
theorem key_assemble_bare {names : List String} (hnonempty : names ≠ [])
    (hnames : ∀ name ∈ names, isSilent name = false ∧ '/' ∉ name.toList) :
    (assemble .bare names).key = ⟨.bare, names⟩ := by
  have hsegments : segmentsOf (assemble .bare names).text = names :=
    segmentsOf_joinSegments hnonempty fun name hname ↦ (hnames name hname).2
  have hkept : (names.filter fun segment ↦ !isSilent segment) = names :=
    List.filter_eq_self.mpr fun name hname ↦ by rw [(hnames name hname).1, Bool.not_false]
  have hanchored : (assemble .bare names).anchored = (.bare, names) := by
    rw [anchored, hsegments]
    split
    · exact absurd (hnames "" List.mem_cons_self).1 (by decide)
    · exact absurd (hnames "." List.mem_cons_self).1 (by decide)
    · rfl
  rw [key, hanchored, hkept]

/-- Cleaning a path that does not start at the root. -/
theorem clean_of_ne_root {path : Path} (hanchor : path.key.anchor ≠ .root) :
    path.clean =
      if cleanNames .bare path.key.names = [] then assemble .here []
      else assemble .bare (cleanNames .bare path.key.names) := by
  rw [clean, cleanNames_of_ne_root hanchor]
  split
  · exact absurd ‹_› hanchor
  · rename_i hnone _
    rw [if_pos hnone]
  · rename_i hsome
    rw [if_neg hsome]

/-- A cleaned path starts at the root if the path did, and its names are the cleaned ones. -/
theorem key_clean (path : Path) :
    (path.clean.key.anchor = .root ↔ path.key.anchor = .root) ∧
      path.clean.key.names = cleanNames path.key.anchor path.key.names := by
  by_cases hanchor : path.key.anchor = .root
  · rw [clean_eq_pathOf hanchor, hanchor,
      key_pathOf (isProperName_of_mem_cleanNames fun _ ↦ mem_names_key)]
    exact ⟨Iff.rfl, rfl⟩
  · rw [cleanNames_of_ne_root hanchor, clean_of_ne_root hanchor]
    by_cases hnone : cleanNames .bare path.key.names = []
    · rw [if_pos hnone, hnone]
      exact ⟨iff_of_false (by decide) hanchor, by decide⟩
    · rw [if_neg hnone, key_assemble_bare hnone fun name ↦ mem_cleanNames]
      exact ⟨iff_of_false Anchor.noConfusion hanchor, rfl⟩

/-- Cleaning a path that was cleaned changes nothing. -/
theorem clean_clean (path : Path) : path.clean.clean = path.clean := by
  obtain ⟨hroot, hnames⟩ := key_clean path
  by_cases hanchor : path.key.anchor = .root
  · rw [clean_eq_pathOf (hroot.mpr hanchor), hnames, hanchor, cleanNames_cleanNames,
      clean_eq_pathOf hanchor]
  · rw [clean_of_ne_root (mt hroot.mp hanchor), hnames, cleanNames_of_ne_root hanchor,
      cleanNames_cleanNames, clean_of_ne_root hanchor]

/-! ### Paths that lead the same way -/

/-- Paths that cannot be told apart by cleaning, whatever is joined to them. -/
structure SameWay (first second : Path) : Prop where
  root : first.key.anchor = .root ↔ second.key.anchor = .root
  names : ∀ anchor latest, first.key.names.foldl (stepClean anchor) latest =
    second.key.names.foldl (stepClean anchor) latest

theorem SameWay.clean_eq {first second : Path} (hsame : SameWay first second) :
    first.clean = second.clean := by
  have hnames (anchor : Anchor) :
      cleanNames anchor first.key.names = cleanNames anchor second.key.names := by
    rw [cleanNames, hsame.names, cleanNames]
  by_cases hfirst : first.key.anchor = .root
  · rw [clean_eq_pathOf hfirst, clean_eq_pathOf (hsame.root.mp hfirst), hnames]
  · rw [clean_of_ne_root hfirst, clean_of_ne_root (mt hsame.root.mpr hfirst), hnames]

theorem beginsWith_slash_append {front : String} (hfront : front ≠ "") (rest : String) :
    Text.Search.beginsWith (front ++ rest) "/" = Text.Search.beginsWith front "/" := by
  rw [Text.Search.beginsWith, Text.Search.beginsWith, String.toList_append]
  cases hcharacters : front.toList with
  | nil => exact absurd (String.toList_eq_nil_iff.mp hcharacters) hfront
  | cons first later => rfl

/-- A path that is read from a directory starts at the root if it says so itself, or if the
directory does. -/
theorem anchor_join_iff (directory : Path) (path : String) :
    (directory.join path).key.anchor = .root ↔
      Text.Search.beginsWith path "/" = true ∨ directory.key.anchor = .root := by
  by_cases hpath : Text.Search.beginsWith path "/" = true
  · rw [anchor_eq_root_iff, join, if_pos hpath]
    exact iff_of_true hpath (Or.inl hpath)
  · refine ⟨fun hjoin ↦ Or.inr ?_, fun hcases ↦ anchor_join (hcases.resolve_left hpath) path⟩
    rw [anchor_eq_root_iff, join, if_neg hpath] at hjoin
    by_cases hempty : directory.text = ""
    · rw [hempty, if_pos (by rfl), String.empty_append] at hjoin
      exact absurd hjoin hpath
    · rw [anchor_eq_root_iff, ← hjoin]
      split_ifs
      · rw [beginsWith_slash_append hempty]
      · rw [String.append_assoc, beginsWith_slash_append hempty]

theorem SameWay.join {first second : Path} (hsame : SameWay first second) {path : String}
    (hrelative : Text.Search.beginsWith path "/" = false) :
    SameWay (first.join path) (second.join path) where
  root := by rw [anchor_join_iff, anchor_join_iff, hsame.root]
  names := by
    intro anchor latest
    rw [names_key_join_relative first hrelative, names_key_join_relative second hrelative,
      List.foldl_append, List.foldl_append, hsame.names]

/-- Segments that come back to where they start, from wherever that is. -/
def ComesBack (turn : String) : Prop :=
  ∀ anchor latest, ((segmentsOf turn).filter fun segment ↦ !isSilent segment).foldl
    (stepClean anchor) latest = latest

theorem comesBack_dot : ComesBack "." :=
  fun _ _ ↦ rfl

/-- A name and a `..` behind it come back. -/
theorem comesBack_detour {name : String} (hname : isProperName name = true) :
    ComesBack (name ++ "/" ++ "..") := by
  intro anchor latest
  have hdots := (isProperName_iff.mp hname).2.2.1
  have hsegments : segmentsOf (name ++ "/" ++ "..") = [name, ".."] := by
    rw [segmentsOf_append_slash, segmentsOf_of_no_slash (no_slash_of_isProperName hname)]
    rfl
  have hmoves : isSilent ".." = false := by decide
  rw [hsegments, List.filter_cons_of_pos (by rw [isSilent_of_isProperName hname, Bool.not_false]),
    List.filter_cons_of_pos (by rw [hmoves, Bool.not_false]), List.filter_nil, List.foldl_cons,
    List.foldl_cons, List.foldl_nil, stepClean_of_ne anchor latest hdots]
  simp [stepClean, hdots]

/-- Segments that come back may be put in behind any slash. -/
theorem sameWay_join_turn (directory : Path) {front turn : String} (hfront : front ≠ "")
    (hrelative : Text.Search.beginsWith front "/" = false) (hturn : ComesBack turn)
    (rest : String) :
    SameWay (directory.join (front ++ "/" ++ (turn ++ "/" ++ rest)))
      (directory.join (front ++ "/" ++ rest)) := by
  have hrelatives (more : String) :
      Text.Search.beginsWith (front ++ "/" ++ more) "/" = false := by
    rw [String.append_assoc, beginsWith_slash_append hfront, hrelative]
  refine ⟨?_, fun anchor latest ↦ ?_⟩
  · rw [anchor_join_iff, anchor_join_iff, hrelatives, hrelatives]
  · rw [names_key_join_relative directory (hrelatives _),
      names_key_join_relative directory (hrelatives _)]
    simp only [segmentsOf_append_slash, List.filter_append, List.foldl_append]
    rw [hturn]

/-- Joining one after the other leads the same way as joining at once. -/
theorem sameWay_join_join (directory : Path) {first second : String} (hfirst : first ≠ "")
    (hsecond : Text.Search.beginsWith second "/" = false) :
    SameWay ((directory.join first).join second) (directory.join (first ++ "/" ++ second)) := by
  have hbegins : Text.Search.beginsWith (first ++ "/" ++ second) "/" =
      Text.Search.beginsWith first "/" := by
    rw [String.append_assoc, beginsWith_slash_append hfirst]
  have hnames : ((directory.join first).join second).key.names =
      (directory.join (first ++ "/" ++ second)).key.names := by
    rw [names_key_join_relative _ hsecond]
    by_cases habsolute : Text.Search.beginsWith first "/" = true
    · rw [join, if_pos habsolute, join, if_pos (hbegins.trans habsolute), names_key, names_key,
        segmentsOf_append_slash, List.filter_append]
    · rw [Bool.not_eq_true] at habsolute
      rw [names_key_join_relative _ habsolute, names_key_join_relative _ (hbegins.trans habsolute),
        segmentsOf_append_slash, List.filter_append, List.append_assoc]
  refine ⟨?_, fun anchor latest ↦ by rw [hnames]⟩
  rw [anchor_join_iff, anchor_join_iff, anchor_join_iff, hsecond, hbegins]
  simp

theorem join_empty_join (directory : Path) {path : String}
    (hrelative : Text.Search.beginsWith path "/" = false) :
    (directory.join "").join path = directory.join path := by
  have hempty : Text.Search.beginsWith "" "/" = false := by decide
  simp only [join, hempty, hrelative]
  by_cases hends : (directory.text == "" || Text.Search.endsWith directory.text "/") = true
  · simp [hends]
  · have hslash : Text.Search.endsWith (directory.text ++ "/") "/" = true := by
      rw [Text.Search.endsWith, String.toList_append, List.isSuffixOf_iff_suffix]
      exact List.suffix_append _ _
    simp [hends, hslash]

/-- The segments of a path that is read from a directory end with those of the path. -/
theorem exists_segmentsOf_join_eq (directory : Path) (path : String) :
    ∃ before, segmentsOf (directory.join path).text = before ++ segmentsOf path := by
  by_cases habsolute : Text.Search.beginsWith path "/" = true
  · exact ⟨[], by rw [join, if_pos habsolute, List.nil_append]⟩
  · obtain ⟨before, hsegments, _⟩ :=
      exists_segmentsOf_join directory (Bool.eq_false_iff.mpr habsolute)
    exact ⟨before, hsegments⟩

/-- A name that comes last is the name of the cleaned path. -/
theorem fileName?_clean {path : Path} {before : List String} {name : String}
    (hsegments : segmentsOf path.text = before ++ [name]) (hname : isProperName name = true) :
    path.clean.fileName? = some name := by
  have hdots := (isProperName_iff.mp hname).2.2.1
  have hlast : path.clean.key.names.getLast? = some name := by
    rw [(key_clean path).2, names_key, hsegments, List.filter_append,
      filter_silent_of_proper (List.forall_mem_singleton.mpr hname), cleanNames_concat _ _ hdots,
      List.getLast?_concat]
  rw [fileName?, hlast]
  exact if_neg (by simpa using hdots)

end Path

open ComponentGraph.Path

namespace Specifier

/-! ### Extensions -/

/-- The end of a text is that of what stands behind a slash, if no slash is asked for. -/
theorem endsWith_slash_append (front rest : String) {pattern : String}
    (hpattern : '/' ∉ pattern.toList) :
    Text.Search.endsWith (front ++ "/" ++ rest) pattern = Text.Search.endsWith rest pattern := by
  have hlast := (List.dropLast_concat_getLast (segmentsOf_ne_nil rest)).symm
  have hwhole : segmentsOf (front ++ "/" ++ rest) = _ :=
    (segmentsOf_append_slash front rest).trans
      ((congrArg (segmentsOf front ++ ·) hlast).trans (List.append_assoc _ _ _).symm)
  rw [endsWith_eq_of_segments hwhole hpattern, endsWith_eq_of_segments hlast hpattern]

/-- What stands behind a slash decides whether a specifier has an extension. -/
theorem hasSourceExtension_slash_append {front : String} (hfront : front ≠ "") (rest : String) :
    hasSourceExtension (front ++ "/" ++ rest) =
      extensions.any fun extension ↦ Text.Search.endsWith rest ("." ++ extension) := by
  have hsome : front.toList.length ≠ 0 := by
    rwa [Ne, List.length_eq_zero_iff, String.toList_eq_nil_iff]
  rw [hasSourceExtension, Bool.eq_iff_iff, List.any_eq_true, List.any_eq_true]
  refine exists_congr fun extension ↦ and_congr_right fun hextension ↦ ?_
  rw [endsWith_slash_append front rest (no_slash_extension extension hextension),
    Bool.and_eq_true, and_iff_left_iff_imp]
  intro hends
  have hlength := (List.isSuffixOf_iff_suffix.mp hends).length_le
  refine decide_eq_true ?_
  simp only [String.toList_append, List.length_append] at hlength ⊢
  have hdot : ".".toList.length = 1 := rfl
  omega

/-- What is spelled with an extension ends with a name that has it, after cleaning too. -/
theorem fileName?_clean_join (directory : Path) {text extension : String}
    (hextension : extension ∈ extensions)
    (hends : Text.Search.endsWith text ("." ++ extension) = true) :
    ∃ name, (directory.join text).clean.fileName? = some name ∧
      Text.Search.endsWith name ("." ++ extension) = true := by
  obtain ⟨before, name, hlast, hname⟩ := exists_last_segment hextension hends
  obtain ⟨above, hsegments⟩ := exists_segmentsOf_join_eq directory text
  rw [hlast, ← List.append_assoc] at hsegments
  refine ⟨name, fileName?_clean hsegments hname, ?_⟩
  rwa [← endsWith_eq_of_segments hlast (no_slash_extension extension hextension)]

/-! ### Candidates -/

/-- How the candidates of a specifier are spelled, in order: the specifier with each extension, then
an index file with each extension below it. -/
def spellings (specifier : String) : List String :=
  [".tsx", ".ts", ".jsx", ".js"].map (fun ending ↦ specifier ++ ending) ++
    ["index.tsx", "index.ts", "index.jsx", "index.js"].map fun name ↦
      if specifier = "" then name else specifier ++ "/" ++ name

theorem spellings_eq (specifier : String) :
    spellings specifier =
      extensions.map (fun extension ↦ specifier ++ ("." ++ extension)) ++
        extensions.map fun extension ↦
          if specifier = "" then "index." ++ extension
          else specifier ++ "/" ++ ("index." ++ extension) := by
  have hendings : [".tsx", ".ts", ".jsx", ".js"] = extensions.map ("." ++ ·) := by decide
  have hnames : ["index.tsx", "index.ts", "index.jsx", "index.js"] =
      extensions.map ("index." ++ ·) := by decide
  rw [spellings, hendings, hnames, List.map_map, List.map_map]
  rfl

theorem no_slash_index : ∀ extension ∈ extensions,
    Text.Search.beginsWith ("index." ++ extension) "/" = false := by
  decide

/-- The candidates of a specifier are its spellings, read from the directory and cleaned. -/
theorem candidates_eq (specifier : String) (directory : Path) :
    candidates specifier directory =
      (spellings specifier).map fun spelling ↦ (directory.join spelling).clean := by
  rw [candidates, spellings_eq, List.map_append, List.map_map, List.map_map]
  refine congrArg₂ (· ++ ·) ?_ (List.map_congr_left fun extension hextension ↦ ?_)
  · refine List.map_congr_left fun extension _ ↦ ?_
    rw [Function.comp, String.append_assoc]
  · have hrelative := no_slash_index extension hextension
    rw [Function.comp]
    by_cases hempty : specifier = ""
    · rw [if_pos hempty, hempty, join_empty_join directory hrelative]
    · rw [if_neg hempty, (sameWay_join_join directory hempty hrelative).clean_eq]

/-- Every spelling has an extension at its end. -/
theorem exists_extension_of_mem_spellings {specifier spelling : String}
    (hspelling : spelling ∈ spellings specifier) :
    ∃ extension ∈ extensions, Text.Search.endsWith spelling ("." ++ extension) = true := by
  rw [spellings_eq, List.mem_append, List.mem_map, List.mem_map] at hspelling
  rcases hspelling with ⟨extension, hextension, rfl⟩ | ⟨extension, hextension, rfl⟩
  · exact ⟨extension, hextension, endsWith_append specifier ("." ++ extension)⟩
  · refine ⟨extension, hextension, ?_⟩
    have hindex : Text.Search.endsWith ("index." ++ extension) ("." ++ extension) = true := by
      revert extension
      decide
    split_ifs
    · exact hindex
    · rwa [endsWith_slash_append _ _ (no_slash_extension extension hextension)]

/-! ### Resolving -/

variable {isFile : Path → Bool}

/-- Segments that come back may be put into a specifier behind any slash. -/
theorem resolve_turn (isFile : Path → Bool) {front turn : String} (hfront : front ≠ "")
    (hrelative : Text.Search.beginsWith front "/" = false) (hturn : ComesBack turn) (rest : String)
    (directory : Path) :
    resolve isFile (front ++ "/" ++ (turn ++ "/" ++ rest)) directory =
      resolve isFile (front ++ "/" ++ rest) directory := by
  have hsame := sameWay_join_turn directory hfront hrelative hturn
  have hextension : hasSourceExtension (front ++ "/" ++ (turn ++ "/" ++ rest)) =
      hasSourceExtension (front ++ "/" ++ rest) := by
    rw [hasSourceExtension_slash_append hfront, hasSourceExtension_slash_append hfront,
      Bool.eq_iff_iff, List.any_eq_true, List.any_eq_true]
    refine exists_congr fun extension ↦ and_congr_right fun hextension ↦ ?_
    rw [endsWith_slash_append turn rest (no_slash_extension extension hextension)]
  have hcandidates : candidates (front ++ "/" ++ (turn ++ "/" ++ rest)) directory =
      candidates (front ++ "/" ++ rest) directory := by
    rw [candidates, candidates]
    refine congrArg₂ (· ++ ·) ?_ ?_
    · refine List.map_congr_left fun extension _ ↦ ?_
      have hlonger := (hsame (rest ++ ("." ++ extension))).clean_eq
      simp only [String.append_assoc] at hlonger ⊢
      exact hlonger
    · exact List.map_congr_left fun extension hextension ↦
        ((hsame rest).join (no_slash_index extension hextension)).clean_eq
  rw [resolve, resolve, hextension, hcandidates, (hsame rest).clean_eq]

/-- What an import stands for is clean and has the name of a source file. -/
theorem clean_of_resolve {specifier : String} {directory target : Path}
    (hresolve : resolve isFile specifier directory = some target) :
    target.clean = target ∧ ∃ name, target.fileName? = some name ∧
      ∃ extension ∈ extensions, Text.Search.endsWith name ("." ++ extension) = true := by
  have hspelled : ∃ spelling, (directory.join spelling).clean = target ∧
      ∃ extension ∈ extensions, Text.Search.endsWith spelling ("." ++ extension) = true := by
    rw [resolve] at hresolve
    split_ifs at hresolve with hsource
    · exact ⟨specifier, Option.some.inj hresolve, exists_extension hsource⟩
    · have hcandidate := List.mem_of_find?_eq_some hresolve
      rw [candidates_eq, List.mem_map] at hcandidate
      obtain ⟨spelling, hspelling, hclean⟩ := hcandidate
      exact ⟨spelling, hclean, exists_extension_of_mem_spellings hspelling⟩
  obtain ⟨spelling, rfl, extension, hextension, hends⟩ := hspelled
  obtain ⟨name, hname, hnameEnds⟩ := fileName?_clean_join directory hextension hends
  exact ⟨clean_clean _, name, hname, extension, hextension, hnameEnds⟩

/-- A specifier without extension stands for its first candidate that is a file. -/
theorem resolve_eq_find? {specifier : String} (hsource : hasSourceExtension specifier = false)
    (directory : Path) :
    resolve isFile specifier directory =
      ((spellings specifier).map fun spelling ↦ (directory.join spelling).clean).find? isFile := by
  rw [resolve, hsource, if_neg Bool.false_ne_true, candidates_eq]

/-- A text that starts with a dot and ends with a slash has something in front of that slash, which
does not start at the root. -/
theorem exists_front_of_endsWith {text : String} (hlocal : isLocal text = true)
    (hends : Text.Search.endsWith text "/" = true) :
    ∃ front, text = front ++ "/" ∧ front ≠ "" ∧ Text.Search.beginsWith front "/" = false := by
  obtain ⟨characters, hcharacters⟩ := List.isSuffixOf_iff_suffix.mp hends
  obtain ⟨later, hlater⟩ := List.isPrefixOf_iff_prefix.mp hlocal
  have hdot : ∃ rest, characters = '.' :: rest := by
    rw [← hlater] at hcharacters
    cases characters with
    | nil => exact absurd (List.cons.inj hcharacters).1 (by decide)
    | cons first rest => exact ⟨rest, congrArg (· :: rest) (List.cons.inj hcharacters).1⟩
  obtain ⟨rest, rfl⟩ := hdot
  have hfront : (String.ofList ('.' :: rest)).toList = '.' :: rest := String.toList_ofList
  refine ⟨String.ofList ('.' :: rest), ?_, ?_, ?_⟩
  · rw [← String.toList_inj, ← hcharacters, String.toList_append, hfront]
  · rw [Ne, ← String.toList_eq_nil_iff, hfront]
    exact List.cons_ne_nil _ _
  · rw [Text.Search.beginsWith, hfront]
    rfl

theorem isLocal_of_beginsWith {text : String} (hrelative :
    Text.Search.beginsWith text "./" = true ∨ Text.Search.beginsWith text "../" = true) :
    isLocal text = true := by
  rw [isLocal]
  simp only [Text.Search.beginsWith, List.isPrefixOf_iff_prefix] at hrelative ⊢
  rcases hrelative with hhere | habove
  · exact List.IsPrefix.trans ⟨['/'], rfl⟩ hhere
  · exact List.IsPrefix.trans ⟨['.', '/'], rfl⟩ habove

/-- An import is resolved by its normal form, whatever the files are. A segment that is taken back
and a `.` may be put in behind any slash of a relative specifier, be there such a directory or not.
What is found is a fixed point of cleaning and has the name of a source file. Unless the specifier
has an extension of its own, it is the first of the eight candidates that is a file; nothing is
found only if none of them is a file. -/
theorem resolve_by_normal_form (isFile : Path → Bool) (directory : Path) :
    (∀ front segment rest : String,
      Text.Search.beginsWith front "./" = true ∨ Text.Search.beginsWith front "../" = true →
      Text.Search.endsWith front "/" = true →
      segment ≠ "" ∧ segment ≠ "." ∧ segment ≠ ".." ∧ '/' ∉ segment.toList →
        resolve isFile (front ++ (segment ++ "/../") ++ rest) directory =
            resolve isFile (front ++ rest) directory ∧
          resolve isFile (front ++ rest) directory =
            resolve isFile (front ++ "./" ++ rest) directory) ∧
      (∀ specifier target, resolve isFile specifier directory = some target →
        target.clean = target ∧
        (∃ name, target.fileName? = some name ∧
          ∃ extension ∈ extensions, Text.Search.endsWith name ("." ++ extension) = true) ∧
        (hasSourceExtension specifier = false → ∃ earlier later,
          (spellings specifier).map (fun spelling ↦ (directory.join spelling).clean) =
              earlier ++ target :: later ∧
            isFile target = true ∧ ∀ candidate ∈ earlier, isFile candidate = false)) ∧
      ∀ specifier, resolve isFile specifier directory = none →
        ∀ spelling ∈ spellings specifier, isFile (directory.join spelling).clean = false := by
  refine ⟨fun text segment rest hrelative hends hsegment ↦ ?_, fun specifier target hresolve ↦ ?_,
    fun specifier hresolve spelling hspelling ↦ ?_⟩
  · obtain ⟨front, rfl, hfront, hroot⟩ :=
      exists_front_of_endsWith (isLocal_of_beginsWith hrelative) hends
    have hcomesBack := comesBack_detour (isProperName_iff.mpr hsegment)
    have hdetour := resolve_turn isFile hfront hroot hcomesBack rest directory
    have hdot := resolve_turn isFile hfront hroot comesBack_dot rest directory
    have htexts : front ++ "/" ++ (segment ++ "/../") ++ rest =
          front ++ "/" ++ (segment ++ "/" ++ ".." ++ "/" ++ rest) ∧
        front ++ "/" ++ "./" ++ rest = front ++ "/" ++ ("." ++ "/" ++ rest) := by
      simp [← String.toList_inj]
    rw [htexts.1, htexts.2, hdetour, hdot]
    exact ⟨rfl, rfl⟩
  · obtain ⟨hclean, hname⟩ := clean_of_resolve hresolve
    refine ⟨hclean, hname, fun hsource ↦ ?_⟩
    rw [resolve_eq_find? hsource, List.find?_eq_some_iff_append] at hresolve
    obtain ⟨hfile, earlier, later, hcandidates, hearlier⟩ := hresolve
    exact ⟨earlier, later, hcandidates, hfile, by simpa using hearlier⟩
  · have hsource : hasSourceExtension specifier = false := by
      refine Bool.eq_false_iff.mpr fun hsource ↦ ?_
      rw [resolve, if_pos hsource] at hresolve
      cases hresolve
    rw [resolve_eq_find? hsource, List.find?_eq_none] at hresolve
    exact Bool.eq_false_iff.mpr (hresolve _ (List.mem_map_of_mem hspelling))

/-- A library directory with an index file in two languages, next to the sources. -/
def library : FileTree where
  root := .directory [
    ("lib", .directory [("api", .directory [
      ("index.js", .file (.text "")), ("index.ts", .file (.text ""))])]),
    ("src", .directory [])]
  workingDirectory := []

theorem resolve_by_normal_form_library :
    Text.Search.beginsWith "../" "../" = true ∧ Text.Search.endsWith "../" "/" = true ∧
      library.hasDirectory ⟨"/missing"⟩ = false ∧
      resolve library.hasFile ("../" ++ ("missing" ++ "/../") ++ "lib/api") ⟨"/src"⟩ =
        some ⟨"/lib/api/index.ts"⟩ ∧
      resolve library.hasFile ("../" ++ "./" ++ "lib/api") ⟨"/src"⟩ =
        some ⟨"/lib/api/index.ts"⟩ ∧
      (Path.mk "/lib/api/index.ts").clean = ⟨"/lib/api/index.ts"⟩ ∧
      library.hasFile ⟨"/lib/api/index.ts"⟩ = true ∧
      library.hasFile ((Path.mk "/src").join "../lib/nothing/index.ts").clean = false := by
  have hbegins : Text.Search.beginsWith "../" "../" = true := by decide
  have hends : Text.Search.endsWith "../" "/" = true := by decide
  have hresolve : resolve library.hasFile ("../" ++ "lib/api") ⟨"/src"⟩ =
      some ⟨"/lib/api/index.ts"⟩ := by decide
  obtain ⟨hturns, hfound, hmissing⟩ := resolve_by_normal_form library.hasFile ⟨"/src"⟩
  obtain ⟨hdetour, hdot⟩ := hturns "../" "missing" "lib/api" (Or.inr hbegins) hends (by decide)
  obtain ⟨hclean, _, hfirst⟩ := hfound _ _ hresolve
  obtain ⟨_, _, _, hfile, _⟩ := hfirst (by decide)
  exact ⟨hbegins, hends, by decide, hdetour.trans hresolve, hdot.symm.trans hresolve, hclean, hfile,
    hmissing "../lib/nothing" (by decide) _ (by decide)⟩

end Specifier

end ComponentGraph
