import LightBridge.Disk

/-!
# What a disk holds after something was put on it

Putting something at the end of a path makes folders and then replaces what is at one place. Folders
stay folders throughout, so the path leads to that place afterwards, and the same can be done again.
-/

namespace LightBridge.Disk

variable {d d' : Disk} {place folder target : Place} {names : List String}

theorem entry?_set_self (entry : DiskEntry) (h : target ≠ Place.root) :
    entry? (d.set target entry) target = some entry := by
  rw [Disk.entry?, if_neg h, set, Table.get?_set_self]

theorem entry?_set_of_ne (entry : DiskEntry) (h : place ≠ target) :
    entry? (d.set target entry) place = d.entry? place := by
  rw [Disk.entry?, set, Table.get?_set_of_ne _ _ h]
  rfl

theorem ne_root_of_not_isFolder (h : d.isFolder target = false) : target ≠ Place.root := by
  rintro rfl
  exact absurd h (by simp [isFolder, entry?_root])

/-- Whatever is put where no folder is, folders stay folders. -/
theorem isFolder_set (entry : DiskEntry) (htarget : d.isFolder target = false)
    (h : d.isFolder place = true) : (d.set target entry).isFolder place = true := by
  have hne : place ≠ target := by
    rintro rfl
    rw [htarget] at h
    cases h
  rwa [isFolder, entry?_set_of_ne entry hne]

/-! ## Following steps -/

theorem follow?_set (entry : DiskEntry) (htarget : d.isFolder target = false)
    (h : d.follow? place names = some folder) :
    (d.set target entry).follow? place names = some folder := by
  induction names generalizing place with
  | nil => exact h
  | cons name rest ih =>
    rw [follow?] at h ⊢
    split at h
    · -- a step starts at a folder, which is not where the entry was put
      next hplace =>
      rw [if_pos (isFolder_set entry htarget hplace)]
      exact ih h
    · cases h

theorem isFolder_of_follow? (h : d.follow? place names = some folder)
    (hfolder : d.isFolder folder = true) : d.isFolder place = true := by
  cases names with
  | nil => rwa [Option.some.inj h]
  | cons name rest =>
    rw [follow?] at h
    split at h
    · next hplace => exact hplace
    · cases h

/-! ## Making folders -/

/-- What making the folders on a way does: the way leads somewhere, and what was a folder stays one. -/
structure Makes (d : Disk) (place : Place) (names : List String) (d' : Disk) (folder : Place) :
    Prop where
  working : d'.working = d.working
  keeps : ∀ p, d.isFolder p = true → d'.isFolder p = true
  follows : d'.follow? place names = some folder
  isFolder : d'.isFolder folder = true

theorem makes_of_makeFolders (hplace : d.isFolder place = true)
    (h : d.makeFolders place names = (d', some folder)) : Makes d place names d' folder := by
  induction names generalizing d place with
  | nil =>
    cases h
    exact ⟨rfl, fun _ hp => hp, rfl, hplace⟩
  | cons name rest ih =>
    rw [makeFolders] at h
    split at h
    · -- the folder is made, and is there for the rest of the way
      next hnone =>
      split at h
      · have htarget : d.isFolder (place.enter name) = false := by rw [isFolder, hnone]; rfl
        have hmade : (d.set (place.enter name) .folder).isFolder (place.enter name) = true := by
          rw [isFolder, entry?_set_self _ (ne_root_of_not_isFolder htarget)]
          rfl
        obtain ⟨hworking, hkeeps, hfollow, hfolder⟩ := ih hmade h
        have hstill := hkeeps _ (isFolder_set .folder htarget hplace)
        refine ⟨hworking, fun p hp => hkeeps p (isFolder_set .folder htarget hp), ?_, hfolder⟩
        rw [follow?, if_pos hstill, hfollow]
      · cases h
    · -- the folder is there already
      next hthere =>
      obtain ⟨hworking, hkeeps, hfollow, hfolder⟩ := ih (by rw [isFolder, hthere]; rfl) h
      refine ⟨hworking, hkeeps, ?_, hfolder⟩
      rw [follow?, if_pos (hkeeps _ hplace), hfollow]
    · cases h

/-- Where all folders are there, none is made. -/
theorem makeFolders_of_follow? (h : d.follow? place names = some folder)
    (hfolder : d.isFolder folder = true) : d.makeFolders place names = (d, some folder) := by
  induction names generalizing place with
  | nil => rw [Option.some.inj h, makeFolders]
  | cons name rest ih =>
    rw [follow?] at h
    split at h
    · have hnext : d.entry? (place.enter name) = some .folder := by
        simpa [isFolder] using isFolder_of_follow? h hfolder
      rw [makeFolders, hnext]
      exact ih h
    · cases h

/-! ## Putting something at the end of a path -/

/-- How something is put at the end of a path: the steps before the last one lead to a folder once
the missing ones are made, and there it is put under the last name. -/
structure Puts (d : Disk) (path : String) (entry : DiskEntry) (before : List String) (name : String)
    (made : Disk) (folder : Place) : Prop where
  steps : steps path = before ++ [name]
  pathSize : path.utf8ByteSize ≤ maxPathSize
  nameSize : name.utf8ByteSize ≤ maxNameSize
  way : d.makeFolders (d.origin path) before = (made, some folder)
  free : made.isFolder (folder.enter name) = false
  ends : d.put path entry = (made.set (folder.enter name) entry, true)

variable {path : String} {entry : DiskEntry} {before : List String} {name : String} {made : Disk}

/-- Putting something at a path succeeds where all of this holds. -/
theorem puts_of_way (hsteps : steps path = before ++ [name]) (hpath : path.utf8ByteSize ≤ maxPathSize)
    (hname : name.utf8ByteSize ≤ maxNameSize)
    (hway : d.makeFolders (d.origin path) before = (made, some folder))
    (hfree : made.isFolder (folder.enter name) = false) (entry : DiskEntry) :
    Puts d path entry before name made folder := by
  refine ⟨hsteps, hpath, hname, hway, hfree, ?_⟩
  rw [put, hsteps, List.getLast?_concat, List.dropLast_concat]
  simp only [if_neg (Nat.not_lt.mpr hpath), hway, hfree, Nat.not_lt.mpr hname, decide_false,
    Bool.or_self, Bool.false_eq_true, if_false]

theorem puts_of_put (h : (d.put path entry).2 = true) :
    ∃ before name made folder, Puts d path entry before name made folder := by
  unfold put at h
  split at h
  · cases h
  · next name hlast =>
    obtain ⟨before, hsteps⟩ := List.getLast?_eq_some_iff.mp hlast
    rw [hsteps, List.dropLast_concat] at h
    split at h
    · cases h
    · next hpath =>
      split at h
      · cases h
      · -- the folders are made, so only the last name is left to be refused
        next made folder hway =>
        split at h
        · cases h
        · next hplace =>
          simp only [Bool.or_eq_true, decide_eq_true_eq, not_or, Bool.not_eq_true] at hplace
          exact ⟨before, name, made, folder, puts_of_way hsteps (Nat.le_of_not_lt hpath)
            (Nat.le_of_not_lt hplace.2) hway hplace.1 entry⟩

/-- The way to what was put: it is the one along which the folders were made. -/
theorem Puts.follow?_set (h : Puts d path entry before name made folder)
    (horigin : d.isFolder (d.origin path) = true) :
    (made.set (folder.enter name) entry).follow? (d.origin path) before = some folder ∧
      (made.set (folder.enter name) entry).isFolder folder = true := by
  have hmakes := makes_of_makeFolders horigin h.way
  exact ⟨Disk.follow?_set entry h.free hmakes.follows, isFolder_set entry h.free hmakes.isFolder⟩

theorem Puts.origin_eq (h : Puts d path entry before name made folder)
    (horigin : d.isFolder (d.origin path) = true) :
    (made.set (folder.enter name) entry).origin path = d.origin path := by
  have hworking := (makes_of_makeFolders horigin h.way).working
  rw [origin, origin, ← hworking]
  rfl

theorem Puts.isFolder_origin (h : Puts d path entry before name made folder)
    (horigin : d.isFolder (d.origin path) = true) :
    (d.put path entry).1.isFolder ((d.put path entry).1.origin path) = true := by
  rw [h.ends, h.origin_eq horigin]
  exact isFolder_set entry h.free ((makes_of_makeFolders horigin h.way).keeps _ horigin)

/-- What was put at the end of a path is what the path leads to. -/
theorem Puts.at?_eq (h : Puts d path entry before name made folder)
    (horigin : d.isFolder (d.origin path) = true) : (d.put path entry).1.at? path = some entry := by
  obtain ⟨hfollow, hfolder⟩ := h.follow?_set horigin
  rw [h.ends, at?, if_pos h.pathSize, h.origin_eq horigin, h.steps, follow?_append, hfollow,
    Option.bind_some, follow?, if_pos hfolder, follow?, Option.bind_some,
    entry?_set_self _ (ne_root_of_not_isFolder h.free)]

/-- What was put there can be replaced. -/
theorem Puts.again (h : Puts d path entry before name made folder)
    (horigin : d.isFolder (d.origin path) = true) (hentry : entry ≠ .folder) (entry' : DiskEntry) :
    Puts (d.put path entry).1 path entry' before name (d.put path entry).1 folder := by
  obtain ⟨hfollow, hfolder⟩ := h.follow?_set horigin
  rw [h.ends]
  refine puts_of_way h.steps h.pathSize h.nameSize ?_ ?_ entry'
  · rw [h.origin_eq horigin]
    exact makeFolders_of_follow? hfollow hfolder
  · rw [isFolder, entry?_set_self _ (ne_root_of_not_isFolder h.free)]
    simpa using hentry

end LightBridge.Disk
