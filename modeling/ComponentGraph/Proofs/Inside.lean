import ComponentGraph.Proofs.Subtree
import Mathlib.Data.List.Find

/-!
Imports that stay inside a project.

The segments of a specifier are followed from the directory of the importing file, one after the
other, and never lead above the root. Cleaning such a path never takes back a name above the root,
so it comes to the same place below any root (`clean_join_below`). With that, everything that a
specifier can stand for is a list of places in the project, and resolving it picks one of them by
what the project has there (`resolve_below`).

All these places end with the name of a source file.
-/

set_option autoImplicit false
set_option relaxedAutoImplicit false

namespace ComponentGraph

open FileTree (pathOf)

namespace Path

/-! ### Cleaning below a root -/

/-- Whether segments that are followed from so many names below a root stay there or below. -/
def staysBelow : Nat → List String → Bool
  | _, [] => true
  | depth, segment :: rest =>
      if isSilent segment then staysBelow depth rest
      else if segment = ".." then decide (0 < depth) && staysBelow (depth - 1) rest
      else staysBelow (depth + 1) rest

/-- What comes last may be exchanged for something that stays below wherever the former does. -/
theorem staysBelow_append_mono {last other : List String}
    (hother : ∀ depth, staysBelow depth last = true → staysBelow depth other = true)
    {front : List String} {depth : Nat} (hstays : staysBelow depth (front ++ last) = true) :
    staysBelow depth (front ++ other) = true := by
  induction front generalizing depth with
  | nil => exact hother depth hstays
  | cons segment rest ih =>
    rw [List.cons_append, staysBelow] at hstays ⊢
    by_cases hsilent : isSilent segment = true
    · rw [if_pos hsilent] at hstays ⊢
      exact ih hstays
    · rw [if_neg hsilent] at hstays ⊢
      by_cases hup : segment = ".."
      · rw [if_pos hup, Bool.and_eq_true] at hstays ⊢
        exact ⟨hstays.1, ih hstays.2⟩
      · rw [if_neg hup] at hstays ⊢
        exact ih hstays

theorem staysBelow_singleton {name : String} (hname : isProperName name = true) (depth : Nat) :
    staysBelow depth [name] = true := by
  have hdots := (isProperName_iff.mp hname).2.2.1
  rw [staysBelow, isSilent_of_isProperName hname, if_neg Bool.false_ne_true, if_neg hdots,
    staysBelow]

theorem foldl_stepClean_of_proper {names : List String}
    (hnames : ∀ name ∈ names, isProperName name = true) (latest : List String) :
    names.foldl (stepClean .root) latest = names.reverse ++ latest := by
  induction names generalizing latest with
  | nil => rfl
  | cons name rest ih =>
    obtain ⟨hname, hrest⟩ := List.forall_mem_cons.mp hnames
    have hdots : ¬ (name == "..") = true := by
      simpa using (isProperName_iff.mp hname).2.2.1
    rw [List.foldl_cons, stepClean.eq_def, if_neg hdots, ih hrest, List.reverse_cons,
      List.append_assoc, List.singleton_append]

/-- Segments that stay below a root do not touch the names above it. The latest names come first, so
those above the root are at the end. -/
theorem foldl_stepClean_append {segments : List String} {latest : List String}
    (hlatest : ".." ∉ latest) (hstays : staysBelow latest.length segments = true)
    (above : List String) :
    (segments.filter fun segment ↦ !isSilent segment).foldl (stepClean .root) (latest ++ above) =
      (segments.filter fun segment ↦ !isSilent segment).foldl (stepClean .root) latest ++
        above := by
  induction segments generalizing latest with
  | nil => rfl
  | cons segment rest ih =>
    rw [staysBelow] at hstays
    by_cases hsilent : isSilent segment = true
    · rw [if_pos hsilent] at hstays
      rw [List.filter_cons_of_neg (by simp [hsilent])]
      exact ih hlatest hstays
    · rw [if_neg hsilent] at hstays
      rw [List.filter_cons_of_pos (by simp [hsilent]), List.foldl_cons, List.foldl_cons]
      by_cases hup : segment = ".."
      · rw [if_pos hup] at hstays
        cases latest with
        | nil => cases hstays
        | cons top below =>
          obtain ⟨htop, hbelow⟩ := not_or.mp (List.mem_cons.not.mp hlatest)
          have hdots : ¬ (top == "..") = true := by simpa using Ne.symm htop
          have hpop (more : List String) : stepClean .root (top :: more) segment = more := by
            rw [stepClean.eq_def, if_pos (by simpa using hup)]
            exact if_neg hdots
          rw [List.cons_append, hpop, hpop]
          exact ih hbelow (Bool.and_eq_true_iff.mp hstays).2
      · rw [if_neg hup] at hstays
        have hpush (more : List String) : stepClean .root more segment = segment :: more := by
          rw [stepClean.eq_def, if_neg (by simpa using hup)]
        rw [hpush, hpush, ← List.cons_append]
        exact ih (List.not_mem_cons_of_ne_of_not_mem (Ne.symm hup) hlatest) hstays

/-- The place below a root to which segments lead from a directory there. -/
def destination (directory : Location) (segments : List String) : Location :=
  cleanNames .root (directory ++ segments.filter fun segment ↦ !isSilent segment)

theorem dotdot_not_mem_of_proper {names : List String}
    (hnames : ∀ name ∈ names, isProperName name = true) : ".." ∉ names :=
  fun hdots ↦ Bool.false_ne_true (hnames _ hdots)

/-- Cleaning does not touch the names above a root. Assumes: the segments stay below it. -/
theorem cleanNames_append {above directory : Location}
    (habove : ∀ name ∈ above, isProperName name = true)
    (hdirectory : ∀ name ∈ directory, isProperName name = true) {segments : List String}
    (hstays : staysBelow directory.length segments = true) :
    cleanNames .root (above ++ directory ++ segments.filter fun segment ↦ !isSilent segment) =
      above ++ destination directory segments := by
  have hdots : ".." ∉ directory.reverse := by
    rw [List.mem_reverse]
    exact dotdot_not_mem_of_proper hdirectory
  rw [← List.length_reverse] at hstays
  rw [destination, cleanNames, cleanNames, List.foldl_append, List.foldl_append, List.foldl_append,
    foldl_stepClean_of_proper habove, foldl_stepClean_of_proper hdirectory,
    foldl_stepClean_of_proper hdirectory, List.append_nil, List.append_nil,
    foldl_stepClean_append hdots hstays, List.reverse_append, List.reverse_reverse]

/-- A text that is read from a directory below a root, and stays below, leads to the same place
below any root. -/
theorem clean_join_below {above directory : Location}
    (habove : ∀ name ∈ above, isProperName name = true)
    (hdirectory : ∀ name ∈ directory, isProperName name = true) {text : String}
    (hrelative : Text.Search.beginsWith text "/" = false)
    (hstays : staysBelow directory.length (segmentsOf text) = true) :
    ((pathOf (above ++ directory)).join text).clean =
      pathOf (above ++ destination directory (segmentsOf text)) := by
  have hproper := List.forall_mem_append.mpr ⟨habove, hdirectory⟩
  have hroot : (pathOf (above ++ directory)).key.anchor = .root := by rw [key_pathOf hproper]
  rw [clean_eq_pathOf (anchor_join hroot text), names_key_join_relative _ hrelative,
    key_pathOf hproper, cleanNames_append habove hdirectory hstays]

end Path

/-! ### Source files -/

open ComponentGraph.Path

namespace Specifier

/-- Whether a name ends like that of a source file. -/
def isSourceName (name : String) : Bool :=
  extensions.any fun extension ↦ Text.Search.endsWith name ("." ++ extension)

/-- The place of a source file: the names are proper, and the last is that of a source file. -/
structure IsSourcePlace (place : Location) : Prop where
  nonempty : place ≠ []
  proper : ∀ name ∈ place, isProperName name = true
  source : isSourceName (place.getLastD "") = true

/-- Segments lead to a source file if the last one is the name of a source file. -/
theorem isSourcePlace_destination {directory : Location}
    (hdirectory : ∀ name ∈ directory, isProperName name = true) {segments : List String}
    (hslash : ∀ segment ∈ segments, '/' ∉ segment.toList) {name : String}
    (hname : isProperName name = true) (hsource : isSourceName name = true) :
    IsSourcePlace (destination directory (segments ++ [name])) := by
  have hlast : destination directory (segments ++ [name]) =
      destination directory segments ++ [name] := by
    rw [destination, List.filter_append,
      filter_silent_of_proper (List.forall_mem_singleton.mpr hname), ← List.append_assoc,
      cleanNames_concat _ _ (isProperName_iff.mp hname).2.2.1, destination]
  have hfront : ∀ other ∈ destination directory segments, isProperName other = true := by
    refine isProperName_of_mem_cleanNames fun other hother ↦ ?_
    rcases List.mem_append.mp hother with habove | hsegment
    · exact ⟨isSilent_of_isProperName (hdirectory other habove),
        no_slash_of_isProperName (hdirectory other habove)⟩
    · obtain ⟨hmem, hloud⟩ := List.mem_filter.mp hsegment
      exact ⟨by simpa using hloud, hslash other hmem⟩
  rw [hlast]
  refine ⟨List.concat_ne_nil _ _, ?_, ?_⟩
  · exact List.forall_mem_append.mpr ⟨hfront, List.forall_mem_singleton.mpr hname⟩
  · rwa [List.getLastD_eq_getLast?, List.getLast?_concat, Option.getD_some]

/-- A text with the extension of a source file leads to a source file. -/
theorem isSourcePlace_of_endsWith {directory : Location}
    (hdirectory : ∀ name ∈ directory, isProperName name = true) {text extension : String}
    (hextension : extension ∈ extensions)
    (hends : Text.Search.endsWith text ("." ++ extension) = true) :
    IsSourcePlace (destination directory (segmentsOf text)) := by
  obtain ⟨before, name, hsegments, hname⟩ := exists_last_segment hextension hends
  have hslash := no_slash_extension extension hextension
  have hsource : isSourceName name = true :=
    List.any_eq_true.mpr ⟨extension, hextension, endsWith_eq_of_segments hsegments hslash ▸ hends⟩
  have hbefore : ∀ segment ∈ before, '/' ∉ segment.toList := by
    intro segment hsegment
    have hmem : segment ∈ segmentsOf text := by
      rw [hsegments]
      exact List.mem_append_left _ hsegment
    exact no_slash_of_mem_segmentsOf hmem
  rw [hsegments]
  exact isSourcePlace_destination hdirectory hbefore hname hsource

/-! ### Resolving below a root -/

/-- The places that a specifier without extension can stand for. -/
def candidatesBelow (source : String) (directory : Location) : List Location :=
  extensions.map (fun extension ↦
      destination directory (segmentsOf (source ++ "." ++ extension))) ++
    extensions.map (fun extension ↦
      destination directory (segmentsOf source ++ ["index." ++ extension]))

/-- The place that a specifier stands for, given where there are files. -/
def resolveBelow (isFile : Location → Bool) (source : String) (directory : Location) :
    Option Location :=
  if hasSourceExtension source then some (destination directory (segmentsOf source))
  else (candidatesBelow source directory).find? isFile

theorem isProperName_index : ∀ extension ∈ extensions,
    isProperName ("index." ++ extension) = true ∧ isSourceName ("index." ++ extension) = true := by
  decide

/-- Text without slashes that is put behind another text changes its last segment only. -/
theorem exists_segmentsOf_append (text : String) {more : String} (hslash : '/' ∉ more.toList) :
    ∃ before last, segmentsOf text = before ++ [last] ∧
      segmentsOf (text ++ more) = before ++ [last ++ more] := by
  rcases eq_or_exists_last_slash text.toList with hnone | ⟨front, last, htext, hlast⟩
  · refine ⟨[], text, segmentsOf_of_no_slash hnone, segmentsOf_of_no_slash ?_⟩
    rw [String.toList_append, List.mem_append]
    exact not_or.mpr ⟨hnone, hslash⟩
  · have hsplit : text = String.ofList front ++ "/" ++ String.ofList last := by
      rw [← String.toList_inj, htext]
      simp
    have hend : '/' ∉ (String.ofList last).toList := by rwa [String.toList_ofList]
    refine ⟨segmentsOf (String.ofList front), String.ofList last, ?_, ?_⟩
    · rw [hsplit, segmentsOf_append_slash, segmentsOf_of_no_slash hend]
    · have hlonger : '/' ∉ (String.ofList last ++ more).toList := by
        rw [String.toList_append, List.mem_append]
        exact not_or.mpr ⟨hend, hslash⟩
      rw [hsplit, String.append_assoc, segmentsOf_append_slash, segmentsOf_of_no_slash hlonger]

section Below

variable {above directory : Location} (habove : ∀ name ∈ above, isProperName name = true)
  (hdirectory : ∀ name ∈ directory, isProperName name = true) {source : String}
  (hlocal : isLocal source = true)
  (hstays : staysBelow directory.length (segmentsOf source) = true)

include hdirectory in
theorem isSourcePlace_of_mem_candidatesBelow {place : Location}
    (hplace : place ∈ candidatesBelow source directory) : IsSourcePlace place := by
  rw [candidatesBelow, List.mem_append, List.mem_map, List.mem_map] at hplace
  rcases hplace with ⟨extension, hextension, rfl⟩ | ⟨extension, hextension, rfl⟩
  · refine isSourcePlace_of_endsWith hdirectory hextension ?_
    rw [String.append_assoc]
    exact endsWith_append source ("." ++ extension)
  · obtain ⟨hname, hsource⟩ := isProperName_index extension hextension
    exact isSourcePlace_destination hdirectory (fun _ ↦ no_slash_of_mem_segmentsOf) hname hsource

include hdirectory in
theorem isSourcePlace_of_resolveBelow {isFile : Location → Bool} {place : Location}
    (hresolve : resolveBelow isFile source directory = some place) : IsSourcePlace place := by
  rw [resolveBelow] at hresolve
  split at hresolve
  · rename_i hsource
    cases hresolve
    obtain ⟨extension, hextension, hends⟩ := exists_extension hsource
    exact isSourcePlace_of_endsWith hdirectory hextension hends
  · exact isSourcePlace_of_mem_candidatesBelow hdirectory (List.mem_of_find?_eq_some hresolve)

include habove hdirectory hlocal hstays

theorem clean_join_extension {extension : String} (hextension : extension ∈ extensions) :
    ((pathOf (above ++ directory)).join (source ++ "." ++ extension)).clean =
      pathOf (above ++ destination directory (segmentsOf (source ++ "." ++ extension))) := by
  rw [String.append_assoc]
  refine clean_join_below habove hdirectory (beginsWith_slash_of_isLocal hlocal _) ?_
  have hslash := no_slash_extension extension hextension
  obtain ⟨before, last, hsegments, hlonger⟩ := exists_segmentsOf_append source hslash
  have hname : isProperName (last ++ ("." ++ extension)) = true := by
    have hmem : last ++ ("." ++ extension) ∈ segmentsOf (source ++ ("." ++ extension)) := by
      rw [hlonger]
      exact List.mem_append_right _ (List.mem_singleton_self _)
    exact isProperName_of_endsWith hextension (endsWith_append _ _)
      (no_slash_of_mem_segmentsOf hmem)
  rw [hlonger]
  rw [hsegments] at hstays
  exact staysBelow_append_mono (fun depth _ ↦ staysBelow_singleton hname depth) hstays

theorem clean_join_index {extension : String} (hextension : extension ∈ extensions) :
    (((pathOf (above ++ directory)).join source).join ("index." ++ extension)).clean =
      pathOf (above ++ destination directory (segmentsOf source ++ ["index." ++ extension])) := by
  have hname := (isProperName_index extension hextension).1
  have hrelative := beginsWith_slash_of_isLocal hlocal ""
  rw [String.append_empty] at hrelative
  have hproper := List.forall_mem_append.mpr ⟨habove, hdirectory⟩
  have hroot : (pathOf (above ++ directory)).key.anchor = .root := by rw [key_pathOf hproper]
  have hlonger : staysBelow directory.length (segmentsOf source ++ ["index." ++ extension]) =
      true := by
    rw [← List.append_nil (segmentsOf source)] at hstays
    exact staysBelow_append_mono (fun depth _ ↦ staysBelow_singleton hname depth) hstays
  have hindex : ["index." ++ extension] =
      ["index." ++ extension].filter fun segment ↦ !isSilent segment :=
    (filter_silent_of_proper (List.forall_mem_singleton.mpr hname)).symm
  rw [clean_eq_pathOf (anchor_join (anchor_join hroot source) _), names_key_join _ hname,
    names_key_join_relative _ hrelative, key_pathOf hproper, List.append_assoc, hindex,
    ← List.filter_append, ← hindex, cleanNames_append habove hdirectory hlonger]

theorem candidates_below :
    candidates source (pathOf (above ++ directory)) =
      (candidatesBelow source directory).map fun place ↦ pathOf (above ++ place) := by
  have hnamed := List.map_congr_left fun extension hextension ↦
    clean_join_extension habove hdirectory hlocal hstays hextension
  have hindex := List.map_congr_left fun extension hextension ↦
    clean_join_index habove hdirectory hlocal hstays hextension
  rw [candidates, candidatesBelow, List.map_append, List.map_map, List.map_map, hnamed, hindex]
  rfl

/-- A local specifier that stays inside is resolved by what there is below the root. -/
theorem resolve_below {isFile : Path → Bool} {isFileBelow : Location → Bool}
    (hfiles : ∀ place, IsSourcePlace place →
      isFile (pathOf (above ++ place)) = isFileBelow place) :
    resolve isFile source (pathOf (above ++ directory)) =
      (resolveBelow isFileBelow source directory).map fun place ↦ pathOf (above ++ place) := by
  rw [resolve, resolveBelow]
  split
  · have hrelative := beginsWith_slash_of_isLocal hlocal ""
    rw [String.append_empty] at hrelative
    rw [clean_join_below habove hdirectory hrelative hstays, Option.map_some]
  · have hfound : (candidatesBelow source directory).find?
        (isFile ∘ fun place ↦ pathOf (above ++ place)) =
          (candidatesBelow source directory).find? isFileBelow :=
      List.find?_congr fun place hplace ↦
        hfiles place (isSourcePlace_of_mem_candidatesBelow hdirectory hplace)
    rw [candidates_below habove hdirectory hlocal hstays, List.find?_map, hfound]

end Below

end Specifier

end ComponentGraph
