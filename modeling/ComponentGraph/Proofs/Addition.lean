import ComponentGraph.FileTree.Change
import ComponentGraph.Proofs.Lookup

/-!
A tree with one more file.

The file is put under a name that was missing in a directory (`Vacant`). Nothing else moves: at
every place that is not the new file itself or below it, there is a file with the same content, a
directory, or nothing, as before (`surface_addFile`), and only the directory of the new file lists
one more name.

Where segments lead in a tree without links is a matter of the entries on the way (`Leads`), so a
path that led somewhere still leads there (`locate_addFile`). A clean path that does not pass the
new file leads nowhere for the same reason as before (`locate_addFile_pathOf`), and a walk that
keeps the new name out comes across the same (`walk_addFile`).
-/

set_option autoImplicit false
set_option relaxedAutoImplicit false

namespace ComponentGraph.FileTree

namespace Entry

/-! ### Changing one name of a directory -/

theorem lookup_cons_eq_ite (name first : String) (entry : Entry) (rest : List (String × Entry)) :
    List.lookup name ((first, entry) :: rest) =
      if name = first then some entry else rest.lookup name := by
  rw [List.lookup_cons]
  by_cases hname : name = first
  · simp [hname]
  · simp [hname, beq_eq_false_iff_ne.mpr hname]

theorem lookup_changeNamed (name : String) (change : Option Entry → Entry) (other : String)
    (entries : List (String × Entry)) :
    (changeNamed name change entries).lookup other =
      if other = name then some (change (entries.lookup name)) else entries.lookup other := by
  induction entries with
  | nil =>
    rw [changeNamed, lookup_cons_eq_ite]
    rfl
  | cons named rest ih =>
    obtain ⟨first, entry⟩ := named
    rw [changeNamed]
    by_cases hfirst : first = name
    · subst hfirst
      rw [if_pos rfl, lookup_cons_eq_ite, List.lookup_cons_self, lookup_cons_eq_ite]
      by_cases hother : other = first <;> simp [hother]
    · rw [if_neg hfirst, lookup_cons_eq_ite, ih, lookup_cons_eq_ite, lookup_cons_eq_ite,
        if_neg (Ne.symm hfirst)]
      by_cases hother : other = first
      · simp [hother, hfirst]
      · rw [if_neg hother, if_neg hother]

theorem changeNamed_of_missing {name : String} {entries : List (String × Entry)}
    (hmissing : entries.lookup name = none) (change : Option Entry → Entry) :
    changeNamed name change entries = entries ++ [(name, change none)] := by
  induction entries with
  | nil => rfl
  | cons named rest ih =>
    obtain ⟨first, entry⟩ := named
    rw [lookup_cons_eq_ite, ite_eq_iff] at hmissing
    obtain ⟨_, hsome⟩ | ⟨hfirst, hrest⟩ := hmissing
    · cases hsome
    · rw [changeNamed, if_neg (Ne.symm hfirst), ih hrest, List.cons_append]

theorem map_fst_changeNamed {name : String} {entries : List (String × Entry)} {entry : Entry}
    (hentry : entries.lookup name = some entry) (change : Option Entry → Entry) :
    (changeNamed name change entries).map Prod.fst = entries.map Prod.fst := by
  induction entries with
  | nil => cases hentry
  | cons named rest ih =>
    obtain ⟨first, other⟩ := named
    rw [changeNamed]
    by_cases hfirst : first = name
    · rw [if_pos hfirst, List.map_cons, List.map_cons, hfirst]
    · rw [lookup_cons_eq_ite, if_neg (Ne.symm hfirst)] at hentry
      rw [if_neg hfirst, List.map_cons, List.map_cons, ih hentry]

theorem directoryCounts_changeNamed {name : String} {entries : List (String × Entry)}
    {entry : Entry} (hentry : entries.lookup name = some entry) {change : Option Entry → Entry}
    (hcount : (change (some entry)).directoryCount = entry.directoryCount) :
    directoryCounts (changeNamed name change entries) = directoryCounts entries := by
  induction entries with
  | nil => cases hentry
  | cons named rest ih =>
    obtain ⟨first, other⟩ := named
    rw [lookup_cons_eq_ite] at hentry
    rw [changeNamed]
    by_cases hfirst : first = name
    · rw [if_pos hfirst.symm, Option.some.injEq] at hentry
      rw [if_pos hfirst, directoryCounts, directoryCounts, hentry, hcount]
    · rw [if_neg (Ne.symm hfirst)] at hentry
      rw [if_neg hfirst, directoryCounts, directoryCounts, ih hentry]

theorem directoryCounts_append (first second : List (String × Entry)) :
    directoryCounts (first ++ second) = directoryCounts first + directoryCounts second := by
  induction first with
  | nil => rw [List.nil_append, directoryCounts, Nat.zero_add]
  | cons named rest ih => rw [List.cons_append, directoryCounts, directoryCounts, ih, Nat.add_assoc]

/-! ### A missing name -/

/-- A directory that has no entry of a name. -/
structure Vacant (root : Entry) (above : Location) (name : String)
    (entries : List (String × Entry)) : Prop where
  directory : root.find? above = some (.directory entries)
  missing : entries.lookup name = none

variable {root new : Entry} {above : Location} {name : String} {entries : List (String × Entry)}

theorem Vacant.find?_eq_none (hvacant : root.Vacant above name entries) :
    root.find? (above ++ [name]) = none := by
  rw [find?_concat, hvacant.directory]
  exact hvacant.missing

/-- Nothing is at the missing name or below it. -/
theorem Vacant.not_prefix (hvacant : root.Vacant above name entries) {place : Location}
    {found : Entry} (hfound : root.find? place = some found) : ¬ above ++ [name] <+: place := by
  rintro ⟨rest, rfl⟩
  rw [find?_append, hvacant.find?_eq_none] at hfound
  cases hfound

/-- A name that is missing deeper down is missing in the entry one step on the way. -/
theorem Vacant.exists_next {first : String} {rest : Location}
    (hvacant : root.Vacant (first :: rest) name entries) :
    ∃ others next, root = .directory others ∧ others.lookup first = some next ∧
      next.Vacant rest name entries := by
  obtain ⟨hfound, hmissing⟩ := hvacant
  cases root with
  | file content => cases hfound
  | link target => cases hfound
  | directory others =>
    rw [find?, child?] at hfound
    cases hnext : others.lookup first with
    | none => simp [hnext] at hfound
    | some next =>
      simp only [hnext] at hfound
      exact ⟨others, next, rfl, hnext, hfound, hmissing⟩

theorem child?_insert (others : List (String × Entry)) (first : String) (rest : Location)
    (other : String) :
    (insert new (first :: rest) (.directory others)).child? other =
      if other = first then some (insert new rest ((others.lookup first).getD (.directory [])))
      else others.lookup other :=
  lookup_changeNamed first _ other others

/-- The directory of the new entry lists it last. -/
theorem Vacant.find?_insert_above (hvacant : root.Vacant above name entries) :
    (insert new (above ++ [name]) root).find? above =
      some (.directory (entries ++ [(name, new)])) := by
  induction above generalizing root with
  | nil =>
    cases hvacant.directory
    rw [List.nil_append, insert, changeNamed_of_missing hvacant.missing]
    rfl
  | cons first rest ih =>
    obtain ⟨others, next, rfl, hnext, hbelow⟩ := hvacant.exists_next
    rw [List.cons_append, find?, child?_insert, if_pos rfl, hnext]
    exact ih hbelow

theorem Vacant.find?_insert_self (hvacant : root.Vacant above name entries) :
    (insert new (above ++ [name]) root).find? (above ++ [name]) = some new := by
  rw [find?_concat, hvacant.find?_insert_above,
    ← changeNamed_of_missing hvacant.missing fun _ ↦ new]
  exact (lookup_changeNamed name _ name entries).trans (if_pos rfl)

/-- What is elsewhere looks the same as long as one only looks at what a changed entry of a
directory does not show. -/
theorem Vacant.map_find?_insert {View : Type} {view : Entry → View}
    (hview : ∀ first change next others, List.lookup first others = some next →
      view (.directory (changeNamed first change others)) = view (.directory others))
    (hvacant : root.Vacant above name entries) {place : Location} (hplace : place ≠ above)
    (helsewhere : ¬ above ++ [name] <+: place) :
    ((insert new (above ++ [name]) root).find? place).map view = (root.find? place).map view := by
  induction above generalizing root place with
  | nil =>
    cases hvacant.directory
    cases place with
    | nil => exact absurd rfl hplace
    | cons other rest =>
      have hother : other ≠ name := by
        rintro rfl
        exact helsewhere ⟨rest, rfl⟩
      rw [List.nil_append, find?, child?_insert, if_neg hother]
      rfl
  | cons first above ih =>
    obtain ⟨others, next, rfl, hnext, hbelow⟩ := hvacant.exists_next
    cases place with
    | nil =>
      rw [List.cons_append, insert, find?, find?, Option.map_some, Option.map_some,
        hview first _ next others hnext]
    | cons other rest =>
      rw [List.cons_append, find?, child?_insert, find?, child?]
      by_cases hother : other = first
      · subst hother
        rw [if_pos rfl, hnext]
        refine ih hbelow (fun hrest ↦ hplace (by rw [hrest])) fun hrest ↦ helsewhere ?_
        exact (List.prefix_cons_inj other).mpr hrest
      · rw [if_neg hother]

theorem Vacant.directoryCount_insert (hvacant : root.Vacant above name entries)
    (hnew : new.directoryCount = 0) :
    (insert new (above ++ [name]) root).directoryCount = root.directoryCount := by
  induction above generalizing root with
  | nil =>
    cases hvacant.directory
    rw [List.nil_append, insert, changeNamed_of_missing hvacant.missing, directoryCount,
      directoryCount, directoryCounts_append, directoryCounts, directoryCounts, insert, hnew]
  | cons first rest ih =>
    obtain ⟨others, next, rfl, hnext, hbelow⟩ := hvacant.exists_next
    rw [List.cons_append, insert, directoryCount, directoryCount,
      directoryCounts_changeNamed hnext (ih hbelow)]

/-! ### What shows of an entry -/

theorem find?_concat_ne_link {start : Entry}
    (hfree : start.allBelow (fun _ entry ↦ !entry.isLink) = true) (location : Location)
    (name link : String) : start.find? (location ++ [name]) ≠ some (.link link) :=
  straightTo_of_free hfree _ _ List.prefix_rfl (List.concat_ne_nil _ _) link

/-- An entry without what is in it, if it is a directory. -/
def surface : Entry → Entry
  | .directory _ => .directory []
  | entry => entry

theorem isLink_surface (entry : Entry) : entry.surface.isLink = entry.isLink := by
  cases entry <;> rfl

/-- The names that an entry lists. -/
def listed : Entry → List String
  | .directory entries => entries.map Prod.fst
  | _ => []

end Entry

/-! ### Where segments lead -/

/-- What following a segment comes to, given what shows at a place and at the name in it. How the
segments after it are followed is left open. -/
def stepOn (here there : Option Entry) (purpose : Purpose)
    (atLink : String → List String → Location → Except Fault Location) (segment : String)
    (rest : List String) (location : Location) (onward : Location → Except Fault Location) :
    Except Fault Location :=
  match here with
  | some (.directory _) =>
      if Path.isSilent segment then onward location
      else if segment = ".." then onward location.dropLast
      else if nameLimit < segment.utf8ByteSize then .error .nameTooLong
      else
        match there with
        | none => purpose.atMissing location segment rest
        | some (.link target) => atLink target rest location
        | some _ => onward (location ++ [segment])
  | _ => .error .notDirectory

/-- One segment is followed by what shows at a place and at the name in it. -/
theorem followSegments_cons_eq (root : Entry) (purpose : Purpose)
    (atLink : String → List String → Location → Except Fault Location) (segment : String)
    (rest : List String) (location : Location) :
    followSegments root purpose atLink (segment :: rest) location =
      stepOn ((root.find? location).map Entry.surface)
        ((root.find? (location ++ [segment])).map Entry.surface) purpose atLink segment rest
        location (followSegments root purpose atLink rest) := by
  rw [followSegments, Entry.find?_concat]
  cases root.find? location with
  | none => rfl
  | some here =>
    cases here with
    | file content => rfl
    | link target => rfl
    | directory entries =>
      rw [Option.bind_some, Entry.child?]
      dsimp only
      cases entries.lookup segment with
      | none => rfl
      | some there => cases there <;> rfl

/-- Segments lead from a place to a place, and no link is on the way. For the purpose of making
something, the last of them may be missing in its directory. -/
inductive Leads (root : Entry) (purpose : Purpose) : List String → Location → Location → Prop where
  | done (location : Location) : Leads root purpose [] location location
  | stay {segment : String} {rest : List String} {location target : Location}
      {entries : List (String × Entry)} (hhere : root.find? location = some (.directory entries))
      (hsilent : Path.isSilent segment = true) (hrest : Leads root purpose rest location target) :
      Leads root purpose (segment :: rest) location target
  | up {rest : List String} {location target : Location} {entries : List (String × Entry)}
      (hhere : root.find? location = some (.directory entries))
      (hrest : Leads root purpose rest location.dropLast target) :
      Leads root purpose (".." :: rest) location target
  | down {segment : String} {rest : List String} {location target : Location}
      {entries : List (String × Entry)} {there : Entry}
      (hhere : root.find? location = some (.directory entries))
      (hsilent : ¬ Path.isSilent segment = true) (hdots : segment ≠ "..")
      (hshort : ¬ nameLimit < segment.utf8ByteSize)
      (hthere : root.find? (location ++ [segment]) = some there) (hlink : there.isLink = false)
      (hrest : Leads root purpose rest (location ++ [segment]) target) :
      Leads root purpose (segment :: rest) location target
  | make {segment : String} {location : Location} {entries : List (String × Entry)}
      (hpurpose : purpose = .creating) (hhere : root.find? location = some (.directory entries))
      (hsilent : ¬ Path.isSilent segment = true) (hdots : segment ≠ "..")
      (hshort : ¬ nameLimit < segment.utf8ByteSize)
      (hmissing : root.find? (location ++ [segment]) = none) :
      Leads root purpose [segment] location (location ++ [segment])

theorem leads_of_followSegments {root : Entry}
    (hfree : root.allBelow (fun _ entry ↦ !entry.isLink) = true) {purpose : Purpose}
    {atLink : String → List String → Location → Except Fault Location} {segments : List String}
    {location target : Location}
    (hfollow : followSegments root purpose atLink segments location = .ok target) :
    Leads root purpose segments location target := by
  induction segments generalizing location with
  | nil =>
    cases hfollow
    exact .done _
  | cons segment rest ih =>
    rw [followSegments_cons_eq] at hfollow
    cases hhere : root.find? location with
    | none =>
      rw [hhere] at hfollow
      cases hfollow
    | some here =>
      rw [hhere] at hfollow
      cases here with
      | file content => cases hfollow
      | link link => cases hfollow
      | directory entries =>
        simp only [stepOn, Option.map_some, Entry.surface] at hfollow
        split_ifs at hfollow with hsilent hdots hlong
        · exact .stay hhere hsilent (ih hfollow)
        · subst hdots
          exact .up hhere (ih hfollow)
        · cases hthere : root.find? (location ++ [segment]) with
          | none =>
            rw [hthere] at hfollow
            cases purpose with
            | existing => cases hfollow
            | creating =>
              cases rest with
              | cons next later => cases hfollow
              | nil =>
                cases hfollow
                exact .make rfl hhere hsilent hdots hlong hthere
          | some there =>
            rw [hthere] at hfollow
            cases there with
            | file content => exact .down hhere hsilent hdots hlong hthere rfl (ih hfollow)
            | directory others => exact .down hhere hsilent hdots hlong hthere rfl (ih hfollow)
            | link link => exact absurd hthere (Entry.find?_concat_ne_link hfree _ _ link)

theorem Leads.followSegments_eq {root : Entry} {purpose : Purpose} {segments : List String}
    {location target : Location} (hleads : Leads root purpose segments location target)
    (atLink : String → List String → Location → Except Fault Location) :
    followSegments root purpose atLink segments location = .ok target := by
  induction hleads with
  | done location => rfl
  | stay hhere hsilent _ ih =>
    rw [followSegments_cons_eq, hhere]
    simp only [stepOn, Option.map_some, Entry.surface, hsilent, if_true]
    exact ih
  | up hhere _ ih =>
    have hsilent : ¬ Path.isSilent ".." = true := by decide
    rw [followSegments_cons_eq, hhere]
    simp only [stepOn, Option.map_some, Entry.surface, if_neg hsilent, if_true]
    exact ih
  | @down _ _ _ _ _ there hhere hsilent hdots hshort hthere hlink _ ih =>
    rw [followSegments_cons_eq, hhere, hthere]
    simp only [stepOn, Option.map_some, Entry.surface, if_neg hsilent, if_neg hdots, if_neg hshort]
    cases there with
    | link link => cases hlink
    | file content => exact ih
    | directory others => exact ih
  | make hpurpose hhere hsilent hdots hshort hmissing =>
    subst hpurpose
    rw [followSegments_cons_eq, hhere, hmissing]
    simp only [stepOn, Option.map_some, Entry.surface, if_neg hsilent, if_neg hdots, if_neg hshort]
    rfl

/-- Where something can be made, there is something already, or the last segment is missing in its
directory. -/
theorem Leads.existing_or_vacant {root : Entry} {purpose : Purpose} {segments : List String}
    {location target : Location} (hleads : Leads root purpose segments location target) :
    Leads root .existing segments location target ∨
      ∃ before above name entries, segments = before ++ [name] ∧ target = above ++ [name] ∧
        root.Vacant above name entries := by
  induction hleads with
  | done location => exact Or.inl (.done location)
  | @stay segment _ _ _ _ hhere hsilent _ ih =>
    rcases ih with hthere | ⟨before, above, name, entries, rfl, hvacant⟩
    · exact Or.inl (.stay hhere hsilent hthere)
    · exact Or.inr ⟨segment :: before, above, name, entries, rfl, hvacant⟩
  | up hhere _ ih =>
    rcases ih with hthere | ⟨before, above, name, entries, rfl, hvacant⟩
    · exact Or.inl (.up hhere hthere)
    · exact Or.inr ⟨".." :: before, above, name, entries, rfl, hvacant⟩
  | @down segment _ _ _ _ _ hhere hsilent hdots hshort hthere hlink _ ih =>
    rcases ih with hrest | ⟨before, above, name, entries, rfl, hvacant⟩
    · exact Or.inl (.down hhere hsilent hdots hshort hthere hlink hrest)
    · exact Or.inr ⟨segment :: before, above, name, entries, rfl, hvacant⟩
  | @make segment location entries _ hhere _ _ _ hmissing =>
    have hlookup : entries.lookup segment = none := by
      rwa [Entry.find?_concat, hhere] at hmissing
    exact Or.inr ⟨[], location, segment, entries, rfl, rfl, hhere, hlookup⟩

/-! ### One more file -/

/-- The tree with one more file. -/
def addFile (tree : FileTree) (above : Location) (name : String) (content : Content) : FileTree :=
  tree.insert (above ++ [name]) (.file content)

section Added

variable {tree : FileTree} {above : Location} {name : String}
  {entries : List (String × Entry)} (hvacant : tree.root.Vacant above name entries)
  (content : Content)

include hvacant

theorem surface_addFile {place : Location} (helsewhere : ¬ above ++ [name] <+: place) :
    ((tree.addFile above name content).root.find? place).map Entry.surface =
      (tree.root.find? place).map Entry.surface := by
  by_cases hplace : place = above
  · have habove : (tree.addFile above name content).root.find? above = _ :=
      hvacant.find?_insert_above
    rw [hplace, habove, hvacant.directory]
    rfl
  · exact hvacant.map_find?_insert (fun _ _ _ _ _ ↦ rfl) hplace helsewhere

theorem listed_addFile {place : Location} (hplace : place ≠ above)
    (helsewhere : ¬ above ++ [name] <+: place) :
    ((tree.addFile above name content).root.find? place).map Entry.listed =
      (tree.root.find? place).map Entry.listed :=
  hvacant.map_find?_insert (fun _ change _ _ hnext ↦ Entry.map_fst_changeNamed hnext change) hplace
    helsewhere

theorem depthLimit_addFile : (tree.addFile above name content).depthLimit = tree.depthLimit := by
  have hcount : (tree.addFile above name content).root.directoryCount = tree.root.directoryCount :=
    hvacant.directoryCount_insert rfl
  rw [depthLimit, depthLimit, hcount]

theorem exists_found_addFile {place : Location} {found : Entry}
    (hfound : tree.root.find? place = some found) :
    ∃ found', (tree.addFile above name content).root.find? place = some found' ∧
      found'.surface = found.surface := by
  have hsurface := surface_addFile hvacant content (hvacant.not_prefix hfound)
  rw [hfound, Option.map_some] at hsurface
  exact Option.map_eq_some_iff.mp hsurface

theorem exists_directory_addFile {place : Location} {others : List (String × Entry)}
    (hfound : tree.root.find? place = some (.directory others)) :
    ∃ others', (tree.addFile above name content).root.find? place =
      some (.directory others') := by
  obtain ⟨found', hfound', hsame⟩ := exists_found_addFile hvacant content hfound
  cases found' <;> cases hsame
  exact ⟨_, hfound'⟩

/-! ### Following a path -/

/-- Segments that led somewhere still lead there, and those that led to where the new file could be
made lead to the file. -/
theorem Leads.addFile {purpose : Purpose} {segments : List String} {location target : Location}
    (hleads : Leads tree.root purpose segments location target)
    (htarget : purpose = .creating → target = above ++ [name]) :
    Leads (tree.addFile above name content).root .existing segments location target := by
  induction hleads with
  | done location => exact .done location
  | stay hhere hsilent _ ih =>
    obtain ⟨_, hhere'⟩ := exists_directory_addFile hvacant content hhere
    exact .stay hhere' hsilent (ih htarget)
  | up hhere _ ih =>
    obtain ⟨_, hhere'⟩ := exists_directory_addFile hvacant content hhere
    exact .up hhere' (ih htarget)
  | down hhere hsilent hdots hshort hthere hlink _ ih =>
    obtain ⟨_, hhere'⟩ := exists_directory_addFile hvacant content hhere
    obtain ⟨there', hthere', hsame⟩ := exists_found_addFile hvacant content hthere
    have hlink' : there'.isLink = false := by
      rw [← hlink, ← Entry.isLink_surface, hsame, Entry.isLink_surface]
    exact .down hhere' hsilent hdots hshort hthere' hlink' (ih htarget)
  | make hpurpose hhere hsilent hdots hshort _ =>
    obtain ⟨_, hhere'⟩ := exists_directory_addFile hvacant content hhere
    have hnew : (tree.addFile above name content).root.find? (above ++ [name]) = _ :=
      hvacant.find?_insert_self
    rw [← htarget hpurpose] at hnew
    exact .down hhere' hsilent hdots hshort hnew rfl (.done _)

variable (hfree : tree.isLinkFree = true)

include hfree

/-- Proper names that do not pass the new file lead where they led before, or fail in the same
way. -/
theorem followSegments_addFile_names
    {atLink atLink' : String → List String → Location → Except Fault Location}
    {names : List String} {location : Location}
    (hnames : ∀ other ∈ names, Path.isProperName other = true)
    (helsewhere : ¬ above ++ [name] <+: location ++ names) :
    followSegments (tree.addFile above name content).root .existing atLink' names location =
      followSegments tree.root .existing atLink names location := by
  induction names generalizing location with
  | nil => rfl
  | cons first rest ih =>
    obtain ⟨hfirst, hrest⟩ := List.forall_mem_cons.mp hnames
    have hdots := (Path.isProperName_iff.mp hfirst).2.2.1
    rw [List.append_cons location first rest] at helsewhere
    have hthere : ¬ above ++ [name] <+: location ++ [first] :=
      fun hfront ↦ helsewhere (hfront.trans (List.prefix_append _ _))
    have hhere : ¬ above ++ [name] <+: location :=
      fun hfront ↦ hthere (hfront.trans (List.prefix_append _ _))
    rw [followSegments_cons_eq, followSegments_cons_eq, surface_addFile hvacant content hhere,
      surface_addFile hvacant content hthere]
    cases tree.root.find? location with
    | none => rfl
    | some here =>
      cases here with
      | file content => rfl
      | link target => rfl
      | directory others =>
        simp only [stepOn, Option.map_some, Entry.surface,
          Path.isSilent_of_isProperName hfirst, Bool.false_eq_true, if_false, if_neg hdots]
        cases hfound : tree.root.find? (location ++ [first]) with
        | none => rfl
        | some there =>
          cases there with
          | file content => simp only [Option.map_some, Entry.surface, ih hrest helsewhere]
          | directory others => simp only [Option.map_some, Entry.surface, ih hrest helsewhere]
          | link link => exact absurd hfound (Entry.find?_concat_ne_link hfree _ _ link)

theorem locate_addFile_of_locateFor {purpose : Purpose} {path : Path} {location : Location}
    (hlocate : locateFor purpose tree path = .ok location)
    (htarget : purpose = .creating → location = above ++ [name]) :
    (tree.addFile above name content).locate path = .ok location := by
  rw [locateFor, linkLimit, follow] at hlocate
  rw [locate, locateFor, linkLimit, follow]
  split_ifs at hlocate ⊢
  have hleads := leads_of_followSegments hfree hlocate
  exact (hleads.addFile hvacant content htarget).followSegments_eq _

theorem locate_addFile {path : Path} {location : Location}
    (hlocate : tree.locate path = .ok location) :
    (tree.addFile above name content).locate path = .ok location :=
  locate_addFile_of_locateFor hvacant content hfree hlocate fun hpurpose ↦ by cases hpurpose

/-- The same from the root, with the slash in front. -/
theorem follow_addFile_slash {names : List String}
    (hnames : ∀ other ∈ names, Path.isProperName other = true)
    (helsewhere : ¬ above ++ [name] <+: names) (links : Nat) :
    follow (tree.addFile above name content).root .existing links ("" :: names) [] =
      follow tree.root .existing links ("" :: names) [] := by
  have hroot : ¬ above ++ [name] <+: [] := by simp
  have hsilent : Path.isSilent "" = true := rfl
  cases links with
  | zero | succ links =>
    rw [follow, follow, followSegments_cons_eq, followSegments_cons_eq,
      surface_addFile hvacant content hroot]
    cases tree.root.find? [] with
    | none => rfl
    | some here =>
      cases here with
      | file content => rfl
      | link target => rfl
      | directory others =>
        simp only [stepOn, Option.map_some, Entry.surface, hsilent, if_true]
        exact followSegments_addFile_names hvacant content hfree hnames helsewhere

theorem locate_addFile_pathOf {place : Location} (hnonempty : place ≠ [])
    (hproper : ∀ other ∈ place, Path.isProperName other = true)
    (helsewhere : ¬ above ++ [name] <+: place) :
    (tree.addFile above name content).locate (pathOf place) = tree.locate (pathOf place) := by
  have hstart (here : Location) : startOf (pathOf place).text here = [] := by
    refine if_pos (Path.anchor_eq_root_iff.mp ?_)
    rw [Path.key_pathOf hproper]
  rw [locate, locate, locateFor, locateFor, hstart, hstart,
    Path.segmentsOf_pathOf hnonempty hproper,
    follow_addFile_slash hvacant content hfree hproper helsewhere linkLimit]

/-! ### What paths name -/

omit hfree in
/-- What a path names shows the same, if the path leads to the same place. -/
theorem surface_entry_addFile {path : Path}
    (hlocate : (tree.addFile above name content).locate path = tree.locate path) :
    ((tree.addFile above name content).entry path).map Entry.surface =
      (tree.entry path).map Entry.surface := by
  cases hplace : tree.locate path with
  | error fault => rw [entry, entry, hlocate, hplace]; rfl
  | ok location =>
    obtain ⟨found, hfound⟩ := exists_of_locate hplace
    obtain ⟨found', hfound', hsame⟩ := exists_found_addFile hvacant content hfound
    have hentry : tree.entry path = .ok found := entry_eq_ok_iff.mpr ⟨location, hplace, hfound⟩
    have hentry' : (tree.addFile above name content).entry path = .ok found' :=
      entry_eq_ok_iff.mpr ⟨location, hlocate.trans hplace, hfound'⟩
    rw [hentry, hentry', Except.map, Except.map, hsame]

end Added

section Questions

variable {first second : FileTree} {path : Path}
  (hsame : (first.entry path).map Entry.surface = (second.entry path).map Entry.surface)

include hsame

theorem entries_of_surface :
    (∃ fault, first.entry path = .error fault ∧ second.entry path = .error fault) ∨
      ∃ one other, first.entry path = .ok one ∧ second.entry path = .ok other ∧
        one.surface = other.surface := by
  cases hfirst : first.entry path with
  | error fault =>
    cases hsecond : second.entry path with
    | error other =>
      rw [hfirst, hsecond] at hsame
      cases hsame
      exact Or.inl ⟨fault, rfl, rfl⟩
    | ok other =>
      rw [hfirst, hsecond] at hsame
      cases hsame
  | ok one =>
    cases hsecond : second.entry path with
    | error other =>
      rw [hfirst, hsecond] at hsame
      cases hsame
    | ok other =>
      rw [hfirst, hsecond] at hsame
      exact Or.inr ⟨one, other, rfl, rfl, Except.ok.inj hsame⟩

theorem has_of_surface : first.has path = second.has path := by
  rw [has, has]
  rcases entries_of_surface hsame with ⟨fault, hfirst, hsecond⟩ | ⟨one, other, hfirst, hsecond, _⟩
  · rw [hfirst, hsecond]
  · rw [hfirst, hsecond]

theorem hasFile_of_surface : first.hasFile path = second.hasFile path := by
  rw [hasFile, hasFile]
  rcases entries_of_surface hsame with ⟨fault, hfirst, hsecond⟩ | ⟨one, other, hfirst, hsecond, heq⟩
  · rw [hfirst, hsecond]
  · rw [hfirst, hsecond]
    cases one <;> cases other <;> cases heq <;> rfl

theorem hasDirectory_of_surface : first.hasDirectory path = second.hasDirectory path := by
  rw [hasDirectory, hasDirectory]
  rcases entries_of_surface hsame with ⟨fault, hfirst, hsecond⟩ | ⟨one, other, hfirst, hsecond, heq⟩
  · rw [hfirst, hsecond]
  · rw [hfirst, hsecond]
    cases one <;> cases other <;> cases heq <;> rfl

theorem readText_of_surface : first.readText path = second.readText path := by
  rw [readText, readText]
  rcases entries_of_surface hsame with ⟨fault, hfirst, hsecond⟩ | ⟨one, other, hfirst, hsecond, heq⟩
  · rw [hfirst, hsecond]
  · rw [hfirst, hsecond]
    cases one <;> cases other <;> cases heq <;> rfl

end Questions

/-! ### Walks -/

theorem sortedNames_eq (root : Entry) (location : Location) :
    sortedNames root location =
      (((root.find? location).map Entry.listed).getD []).mergeSort
        fun first second ↦ decide (first ≤ second) := by
  rw [sortedNames]
  cases root.find? location with
  | none => exact List.mergeSort_nil.symm
  | some found =>
    cases found with
    | directory entries => rfl
    | file content => exact List.mergeSort_nil.symm
    | link target => exact List.mergeSort_nil.symm

/-- A name that is added last is put somewhere among the sorted names. -/
theorem exists_mergeSort_concat (names : List String) (name : String) :
    ∃ before after,
      (names ++ [name]).mergeSort (fun first second ↦ decide (first ≤ second)) =
        before ++ name :: after ∧
      names.mergeSort (fun first second ↦ decide (first ≤ second)) = before ++ after := by
  have htrans (first second third : String) (hfirst : decide (first ≤ second) = true)
      (hsecond : decide (second ≤ third) = true) : decide (first ≤ third) = true :=
    decide_eq_true (String.le_trans (of_decide_eq_true hfirst) (of_decide_eq_true hsecond))
  have htotal (first second : String) :
      (decide (first ≤ second) || decide (second ≤ first)) = true := by
    simpa using String.le_total first second
  have hperm : ((names ++ [name]).mergeSort fun first second ↦ decide (first ≤ second)).Perm
      ((name :: names).mergeSort fun first second ↦ decide (first ≤ second)) :=
    ((List.mergeSort_perm _ _).trans (List.perm_append_singleton name names)).trans
      (List.mergeSort_perm _ _).symm
  have hfront := hperm.eq_of_pairwise
    (fun _ _ _ _ hfirst hsecond ↦
      String.le_antisymm (of_decide_eq_true hfirst) (of_decide_eq_true hsecond))
    (List.pairwise_mergeSort htrans htotal _) (List.pairwise_mergeSort htrans htotal _)
  obtain ⟨before, after, hmore, hless, _⟩ := List.mergeSort_cons htrans htotal name names
  exact ⟨before, after, hfront.trans hmore, hless⟩

section Walks

variable {tree : FileTree} {above : Location} {name : String}
  {entries : List (String × Entry)} (hvacant : tree.root.Vacant above name entries)
  (content : Content) (hfree : tree.isLinkFree = true) {excluded : Exclusion}
  (hexcluded : ∀ path, excluded path name = true)

include hvacant

theorem sortedNames_addFile {location : Location} (hlocation : location ≠ above)
    (helsewhere : ¬ above ++ [name] <+: location) :
    sortedNames (tree.addFile above name content).root location =
      sortedNames tree.root location := by
  rw [sortedNames_eq, sortedNames_eq, listed_addFile hvacant content hlocation helsewhere]

/-- The directory of the new file lists its name among the others. -/
theorem exists_sortedNames_addFile :
    ∃ before after, sortedNames (tree.addFile above name content).root above =
        before ++ name :: after ∧
      sortedNames tree.root above = before ++ after := by
  have habove : (tree.addFile above name content).root.find? above = _ :=
    hvacant.find?_insert_above
  rw [sortedNames_eq, sortedNames_eq, habove, hvacant.directory, Option.map_some, Option.map_some,
    Option.getD_some, Option.getD_some, Entry.listed, Entry.listed, List.map_append,
    List.map_singleton]
  exact exists_mergeSort_concat _ name

/-- A name that a directory listed before is not that of the new file. -/
theorem not_prefix_of_mem_sortedNames {location : Location} {found : Entry}
    (hfound : tree.root.find? location = some found) {other : String}
    (hother : other ∈ sortedNames tree.root location) :
    ¬ above ++ [name] <+: location ++ [other] := by
  rw [List.prefix_concat_iff, not_or]
  refine ⟨fun heq ↦ ?_, hvacant.not_prefix hfound⟩
  obtain ⟨rfl, hname⟩ := List.append_inj' heq rfl
  obtain rfl := List.singleton_inj.mp hname
  rw [sortedNames, hvacant.directory, List.mem_mergeSort, List.mem_map] at hother
  obtain ⟨named, hnamed, hsame⟩ := hother
  have hmissing := List.lookup_eq_none_iff.mp hvacant.missing named hnamed
  simp [hsame] at hmissing

include hfree

/-- Under a name that was there the walk sees the same, as far as entering a directory gives the
same. -/
theorem sightName_addFile {enter enter' : Path → Location → List Sighting}
    {opened : List OpenDirectory} {path : Path} {location : Location} {other : String}
    (helsewhere : ¬ above ++ [name] <+: location ++ [other])
    (henter : ∀ child entries, tree.root.find? (location ++ [other]) = some (.directory entries) →
      enter' child (location ++ [other]) = enter child (location ++ [other])) :
    sightName (tree.addFile above name content) excluded enter' opened path location other =
      sightName tree excluded enter opened path location other := by
  have hsurface := surface_addFile hvacant content helsewhere
  rw [sightName, sightName]
  cases hfound : tree.root.find? (location ++ [other]) with
  | none =>
    rw [hfound, Option.map_none, Option.map_eq_none_iff] at hsurface
    rw [hsurface]
  | some found =>
    obtain ⟨found', hfound', hsame⟩ := exists_found_addFile hvacant content hfound
    rw [hfound']
    cases found with
    | file content =>
      cases found' <;> cases hsame
      rfl
    | directory entries =>
      cases found' <;> cases hsame
      simp only [henter _ entries hfound]
    | link target => exact absurd hfound (Entry.find?_concat_ne_link hfree _ _ target)

include hexcluded

theorem walkBelow_addFile {depth : Nat} {opened : List OpenDirectory} {path : Path}
    {location : Location} {found : Entry} (hfound : tree.root.find? location = some found) :
    walkBelow (tree.addFile above name content) excluded depth opened path location =
      walkBelow tree excluded depth opened path location := by
  induction depth generalizing opened path location found with
  | zero => rfl
  | succ depth ih =>
    have hsight (other : String) (hother : ¬ above ++ [name] <+: location ++ [other]) :
        sightName (tree.addFile above name content) excluded
            (walkBelow (tree.addFile above name content) excluded depth
              (⟨path, location⟩ :: opened))
            (⟨path, location⟩ :: opened) path location other =
          sightName tree excluded (walkBelow tree excluded depth (⟨path, location⟩ :: opened))
            (⟨path, location⟩ :: opened) path location other :=
      sightName_addFile hvacant content hfree hother fun child entries hentries ↦ ih hentries
    rw [walkBelow, walkBelow]
    congr 1
    by_cases hlocation : location = above
    · -- the new name is among the others, and nothing is made of it
      subst hlocation
      obtain ⟨before, after, hmore, hless⟩ := exists_sortedNames_addFile hvacant content
      have hnew (enter : Path → Location → List Sighting) (opened : List OpenDirectory) :
          sightName (tree.addFile location name content) excluded enter opened path location name =
            [] := by
        have hplace : (tree.addFile location name content).root.find? (location ++ [name]) = _ :=
          hvacant.find?_insert_self
        simp only [sightName, hplace, hexcluded, if_true]
      rw [hmore, hless, List.flatMap_append, List.flatMap_cons, hnew, List.nil_append,
        ← List.flatMap_append, ← hless]
      exact List.flatMap_congr fun other hother ↦
        hsight other (not_prefix_of_mem_sortedNames hvacant hfound hother)
    · rw [sortedNames_addFile hvacant content hlocation (hvacant.not_prefix hfound)]
      exact List.flatMap_congr fun other hother ↦
        hsight other (not_prefix_of_mem_sortedNames hvacant hfound hother)

/-- A walk that keeps the new name out comes across the same as before. Assumes: it starts at
something that was there. -/
theorem walk_addFile {start : Path} {location : Location}
    (hlocate : tree.locate start = .ok location) :
    (tree.addFile above name content).walk excluded start = tree.walk excluded start := by
  obtain ⟨found, hfound⟩ := exists_of_locate hlocate
  obtain ⟨found', hfound', hsame⟩ := exists_found_addFile hvacant content hfound
  rw [walk, walk, locate_addFile hvacant content hfree hlocate, hlocate]
  simp only [hfound, hfound']
  cases found <;> cases found' <;> cases hsame
  · rfl
  · simp only [depthLimit_addFile hvacant content,
      walkBelow_addFile hvacant content hfree hexcluded hfound]
  · rfl

end Walks

end ComponentGraph.FileTree
