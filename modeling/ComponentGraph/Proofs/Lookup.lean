import ComponentGraph.Proofs.CleanPath

/-!
Where paths lead.

Whatever a path leads to is there (`exists_of_locate`), so its place has proper names if the tree
has. A clean path with no link on its way leads straight to the place that it spells, provided that
something is there and that the system takes the path (`locate_pathOf_iff`). Without links this is
all that a path can lead to, so a place has one clean path only.
-/

set_option autoImplicit false
set_option relaxedAutoImplicit false

namespace ComponentGraph.FileTree

/-! ### What is found is there -/

theorem exists_of_followSegments {root : Entry}
    {atLink : String → List String → Location → Except Fault Location} {segments : List String}
    {location target : Location}
    (hlink : ∀ link rest place, (∃ entry, root.find? place = some entry) →
      atLink link rest place = .ok target → ∃ entry, root.find? target = some entry)
    (hplace : ∃ entry, root.find? location = some entry)
    (hfollow : followSegments root .existing atLink segments location = .ok target) :
    ∃ entry, root.find? target = some entry := by
  induction segments generalizing location with
  | nil =>
    cases hfollow
    exact hplace
  | cons segment rest ih =>
    obtain ⟨entries, hentries, hstep⟩ := followSegments_cons hfollow
    rcases hstep with hstay | hup | ⟨link, _, hjump⟩ | ⟨next, hlookup, hdown⟩
    · exact ih hplace hstay
    · obtain ⟨above, habove⟩ := Entry.exists_directory_dropLast hentries
      exact ih ⟨_, habove⟩ hup
    · exact hlink link rest location hplace hjump
    · refine ih ⟨next, ?_⟩ hdown
      rw [Entry.find?_concat, hentries]
      exact hlookup

theorem exists_of_follow {root : Entry} {links : Nat} {segments : List String}
    {location target : Location} (hplace : ∃ entry, root.find? location = some entry)
    (hfollow : follow root .existing links segments location = .ok target) :
    ∃ entry, root.find? target = some entry := by
  induction links generalizing segments location with
  | zero =>
    rw [follow] at hfollow
    refine exists_of_followSegments ?_ hplace hfollow
    intro link rest place _ hjump
    cases hjump
  | succ links ih =>
    rw [follow] at hfollow
    refine exists_of_followSegments ?_ hplace hfollow
    intro link rest place hthere hjump
    refine ih ?_ hjump
    rw [startOf]
    split
    · exact ⟨root, rfl⟩
    · exact hthere

/-- What a path leads to is there. -/
theorem exists_of_locate {tree : FileTree} {path : Path} {location : Location}
    (hlocate : tree.locate path = .ok location) :
    ∃ entry, tree.root.find? location = some entry := by
  have hfollow := locate_eq_ok hlocate
  refine exists_of_follow ?_ hfollow
  -- the first segment, and there is always one, is read in a directory
  rw [linkLimit, follow] at hfollow
  cases hsegments : Path.segmentsOf path.text with
  | nil => exact absurd hsegments (Path.segmentsOf_ne_nil path.text)
  | cons segment rest =>
    rw [hsegments] at hfollow
    obtain ⟨entries, hentries, _⟩ := followSegments_cons hfollow
    exact ⟨_, hentries⟩

theorem Entry.isProperName_of_find? {entry found : Entry} {location : Location}
    (hnames : entry.allBelow (fun name _ ↦ Path.isProperName name) = true)
    (hfound : entry.find? location = some found) :
    ∀ name ∈ location, Path.isProperName name = true := by
  induction location generalizing entry with
  | nil => exact fun name hname ↦ absurd hname List.not_mem_nil
  | cons first rest ih =>
    cases entry with
    | file content => cases hfound
    | link target => cases hfound
    | directory entries =>
      rw [find?, child?] at hfound
      cases hlookup : entries.lookup first with
      | none => simp [hlookup] at hfound
      | some next =>
        rw [allBelow, allNamed_iff] at hnames
        obtain ⟨hfirst, hbelow⟩ := hnames _ (mem_of_lookup hlookup)
        simp only [hlookup] at hfound
        exact List.forall_mem_cons.mpr ⟨hfirst, ih hbelow hfound⟩

/-- The place that a path leads to has proper names. -/
theorem isProperName_of_locate {tree : FileTree} (hnames : tree.isWellNamed = true) {path : Path}
    {location : Location} (hlocate : tree.locate path = .ok location) :
    ∀ name ∈ location, Path.isProperName name = true := by
  obtain ⟨entry, hentry⟩ := exists_of_locate hlocate
  exact Entry.isProperName_of_find? hnames hentry

/-! ### Ways without links -/

/-- No link lies on the way down from an entry along these names. -/
def Entry.StraightTo (start : Entry) (names : Location) : Prop :=
  ∀ front, front <+: names → front ≠ [] → ∀ link, start.find? front ≠ some (.link link)

theorem Entry.straightTo_of_free {start : Entry}
    (hfree : start.allBelow (fun _ entry ↦ !entry.isLink) = true) (names : Location) :
    start.StraightTo names := by
  intro front _ hnonempty link hlink
  rw [← List.dropLast_concat_getLast hnonempty, find?_concat] at hlink
  obtain ⟨above, habove, hchild⟩ := Option.bind_eq_some_iff.mp hlink
  have hbelow := allBelow_of_find? hfree habove
  cases above with
  | file content => cases hchild
  | link target => cases hchild
  | directory entries =>
    rw [allBelow, allNamed_iff] at hbelow
    exact Bool.false_ne_true (hbelow _ (mem_of_lookup hchild)).1

/-- The way to a directory has no link on it, and the way below it may be gone on with. -/
theorem Entry.StraightTo.append {start : Entry} {above names : Location}
    {entries : List (String × Entry)} (habove : start.find? above = some (.directory entries))
    (hbelow : (directory entries).StraightTo names) : start.StraightTo (above ++ names) := by
  intro front hfront hnonempty link hlink
  rcases List.prefix_or_prefix_of_prefix hfront (List.prefix_append above names) with
    ⟨more, hmore⟩ | ⟨more, hmore⟩
  · rw [← hmore, find?_append, hlink] at habove
    cases more with
    | nil => cases habove
    | cons name rest => cases habove
  · subst hmore
    rw [find?_append, habove] at hlink
    have hmore : more <+: names := (List.prefix_append_right_inj above).mp hfront
    by_cases hempty : more = []
    · subst hempty
      cases hlink
    · exact hbelow more hmore hempty link hlink

/-! ### Where clean paths lead -/

/-- Whether the system takes a name: it holds no zero character and is not too long. -/
def isAcceptedName (name : String) : Bool :=
  !name.toList.contains (Char.ofNat 0) && decide (name.utf8ByteSize ≤ nameLimit)

/-- Whether the system takes the path of a place: it takes the names, and together they are not too
long. -/
def isAddressable (names : Location) : Bool :=
  names.all isAcceptedName && decide ((pathOf names).text.utf8ByteSize ≤ pathLimit)

/-- Proper names lead from place to place, one by one. Assumes: no link is on the way. -/
theorem followSegments_names_iff {root start : Entry}
    {atLink : String → List String → Location → Except Fault Location} {names : List String}
    {location target : Location} (hnames : ∀ name ∈ names, Path.isProperName name = true)
    (hstart : root.find? location = some start) (hstraight : start.StraightTo names) :
    followSegments root .existing atLink names location = .ok target ↔
      target = location ++ names ∧ (∀ name ∈ names, name.utf8ByteSize ≤ nameLimit) ∧
        (start.find? names).isSome = true := by
  induction names generalizing location start with
  | nil => simp [followSegments, Entry.find?, eq_comm]
  | cons name rest ih =>
    obtain ⟨hname, hrest⟩ := List.forall_mem_cons.mp hnames
    have hsilent := Path.isSilent_of_isProperName hname
    have hdots := (Path.isProperName_iff.mp hname).2.2.1
    rw [followSegments, hstart]
    cases start with
    | file content => simp [Entry.find?, Entry.child?]
    | link link => simp [Entry.find?, Entry.child?]
    | directory entries =>
      have hchild : (Entry.directory entries).child? name = entries.lookup name := rfl
      dsimp only
      rw [hsilent, if_neg Bool.false_ne_true, if_neg hdots, Entry.find?, hchild]
      by_cases hlong : nameLimit < name.utf8ByteSize
      · rw [if_pos hlong]
        simp [Nat.not_le.mpr hlong]
      · rw [if_neg hlong]
        cases hlookup : entries.lookup name with
        | none => simp [Purpose.atMissing]
        | some next =>
          have hplace : root.find? (location ++ [name]) = some next := by
            rw [Entry.find?_concat, hstart]
            exact hlookup
          have hfind (more : Location) :
              (Entry.directory entries).find? (name :: more) = next.find? more := by
            rw [Entry.find?, hchild, hlookup]
          have hnext : next.StraightTo rest := by
            intro front hfront _ link hlink
            refine hstraight (name :: front) ((List.prefix_cons_inj name).mpr hfront)
              (List.cons_ne_nil _ _) link ?_
            rw [hfind, hlink]
          have hdown := ih hrest hplace hnext
          cases next with
          | link link =>
            exact absurd (hfind []) (hstraight [name] (List.prefix_append [name] rest)
              (List.cons_ne_nil _ _) link)
          | file content => simpa [Nat.not_lt.mp hlong] using hdown
          | directory below => simpa [Nat.not_lt.mp hlong] using hdown

theorem mem_joinSegments {segments : List String} {character : Char}
    (hcharacter : character ≠ '/') :
    character ∈ (Path.joinSegments segments).toList ↔
      ∃ segment ∈ segments, character ∈ segment.toList := by
  induction segments with
  | nil => simp [Path.joinSegments]
  | cons segment rest ih =>
    by_cases hrest : rest = []
    · subst hrest
      simp [Path.joinSegments]
    · rw [Path.joinSegments_cons segment hrest]
      simp [ih, hcharacter]

theorem zero_mem_pathOf (names : Location) :
    Char.ofNat 0 ∈ (pathOf names).text.toList ↔ ∃ name ∈ names, Char.ofNat 0 ∈ name.toList := by
  have hslash : Char.ofNat 0 ≠ '/' := by decide
  rw [Path.text_pathOf, String.toList_append, List.mem_append, mem_joinSegments hslash]
  simp [hslash]

/-- A clean path leads to the place that it spells and to no other. Assumes: no link is on the
way. -/
theorem locate_pathOf_iff {tree : FileTree} {names location : Location} (hnonempty : names ≠ [])
    (hnames : ∀ name ∈ names, Path.isProperName name = true)
    (hstraight : tree.root.StraightTo names) :
    tree.locate (pathOf names) = .ok location ↔
      location = names ∧ isAddressable names = true ∧ (tree.root.find? names).isSome = true := by
  have hstart : startOf (pathOf names).text tree.workingDirectory = [] := by
    refine if_pos (Path.anchor_eq_root_iff.mp ?_)
    rw [Path.key_pathOf hnames]
  have hempty : (pathOf names).text ≠ "" := by
    intro htext
    have hroot : (pathOf names).key.anchor = .root := by rw [Path.key_pathOf hnames]
    rw [Path.anchor_eq_root_iff, htext] at hroot
    exact Bool.false_ne_true hroot
  rw [locate, locateFor, isAddressable, Bool.and_eq_true, List.all_eq_true, decide_eq_true_eq]
  by_cases hzero : Char.ofNat 0 ∈ (pathOf names).text.toList
  · -- one of the names holds the zero
    rw [if_pos (List.contains_iff_mem.mpr hzero)]
    obtain ⟨name, hname, hbad⟩ := (zero_mem_pathOf names).mp hzero
    refine iff_of_false (by simp) fun hall ↦ ?_
    have haccepted := hall.2.1.1 name hname
    simp [isAcceptedName, hbad] at haccepted
  · rw [if_neg fun hcontains ↦ hzero (List.contains_iff_mem.mp hcontains), if_neg hempty]
    have hclear (name : String) (hname : name ∈ names) :
        isAcceptedName name = true ↔ name.utf8ByteSize ≤ nameLimit := by
      have hgood : Char.ofNat 0 ∉ name.toList := fun hbad ↦
        hzero ((zero_mem_pathOf names).mpr ⟨name, hname, hbad⟩)
      simp [isAcceptedName, hgood]
    have haccepted : (∀ name ∈ names, isAcceptedName name = true) ↔
        ∀ name ∈ names, name.utf8ByteSize ≤ nameLimit :=
      forall₂_congr hclear
    rw [haccepted]
    by_cases hlong : pathLimit < (pathOf names).text.utf8ByteSize
    · rw [if_pos hlong]
      simp [Nat.not_le.mpr hlong]
    · rw [if_neg hlong, hstart, linkLimit, follow, Path.segmentsOf_pathOf hnonempty hnames,
        followSegments]
      cases hroot : tree.root with
      | file content =>
        cases names with
        | nil => exact absurd rfl hnonempty
        | cons first rest => simp [Entry.find?, Entry.child?]
      | link target =>
        cases names with
        | nil => exact absurd rfl hnonempty
        | cons first rest => simp [Entry.find?, Entry.child?]
      | directory entries =>
        have hfind : (Entry.directory entries).find? [] = some (.directory entries) := rfl
        have hsilent : Path.isSilent "" = true := rfl
        rw [hroot] at hstraight
        simp only [hfind, hsilent, if_true]
        rw [followSegments_names_iff hnames hfind hstraight, List.nil_append]
        simp [Nat.not_lt.mp hlong]

/-- What a clean path names is what stands at the place that it spells. Assumes: no link is on the
way. -/
theorem entry_pathOf_iff {tree : FileTree} {names : Location} {found : Entry}
    (hnonempty : names ≠ []) (hnames : ∀ name ∈ names, Path.isProperName name = true)
    (hstraight : tree.root.StraightTo names) :
    tree.entry (pathOf names) = .ok found ↔
      isAddressable names = true ∧ tree.root.find? names = some found := by
  rw [entry_eq_ok_iff]
  simp only [locate_pathOf_iff hnonempty hnames hstraight]
  constructor
  · rintro ⟨_, ⟨rfl, haddress, _⟩, hfound⟩
    exact ⟨haddress, hfound⟩
  · rintro ⟨haddress, hfound⟩
    exact ⟨names, ⟨rfl, haddress, by rw [hfound]; rfl⟩, hfound⟩

/-- A place has one clean path. Assumes: there are no links. -/
theorem eq_of_locate_clean {tree : FileTree} (hfree : tree.isLinkFree = true) {first second : Path}
    (hfirst : first.isClean = true) (hsecond : second.isClean = true) {location : Location}
    (hfirstPlace : tree.locate first = .ok location)
    (hsecondPlace : tree.locate second = .ok location) : first = second := by
  have hpath {path : Path} (hclean : path.isClean = true)
      (hplace : tree.locate path = .ok location) : path = pathOf location := by
    obtain ⟨names, hnonempty, hnames, rfl⟩ := Path.isClean_iff.mp hclean
    have hstraight := Entry.straightTo_of_free hfree names
    rw [((locate_pathOf_iff hnonempty hnames hstraight).mp hplace).1]
  rw [hpath hfirst hfirstPlace, hpath hsecond hsecondPlace]

end ComponentGraph.FileTree
