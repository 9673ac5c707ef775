import SheetScript.Files.Workspace

/-! What writing a file does to the table of files, and when it cannot be done. -/

namespace SheetScript.Files.Workspace

theorem lookup_cons (place other : Location) (entry : Entry) (rest : List (Location × Entry)) :
    ((place, entry) :: rest).lookup other =
      if other = place then some entry else rest.lookup other := by
  by_cases same : other = place
  · simp [same]
  · have different : (other == place) = false := by simpa using same
    simp [List.lookup_cons, same, different]

theorem lookup_put (location other : Location) (entry : Entry) (entries : List (Location × Entry)) :
    (put location entry entries).lookup other =
      if other = location then some entry else entries.lookup other := by
  induction entries with
  | nil => simp [put, lookup_cons]
  | cons first rest ih =>
      rcases first with ⟨place, kept⟩
      by_cases here : place = location
      · subst here
        by_cases same : other = place <;> simp [put, lookup_cons, same]
      · by_cases same : other = place
        · simp [put, here, same]
        · simp [put, lookup_cons, here, same, ih]

theorem entryAt?_nil (space : Workspace) : space.entryAt? [] = some .directory := by
  simp [entryAt?]

theorem entryAt?_setEntry (space : Workspace) (location other : Location) (entry : Entry)
    (notRoot : location ≠ []) :
    (space.setEntry location entry).entryAt? other =
      if other = location then some entry else space.entryAt? other := by
  by_cases root : other = []
  · have different : ¬ other = location := fun same => notRoot (same ▸ root)
    rw [if_neg different, root, entryAt?_nil, entryAt?_nil]
  · simp only [entryAt?, List.isEmpty_iff, root, ↓reduceIte]
    exact lookup_put location other entry space.entries

theorem writable_eq_ok (space : Workspace) (path : Path) (location : Location) :
    space.writable path = .ok location ↔
      space.locate path = .ok location ∧ space.entryAt? location ≠ some .directory ∧
        space.entryAt? location.dropLast = some .directory := by
  unfold writable
  cases located : space.locate path with
  | error fault => simp [bind, Except.bind]
  | ok place =>
      simp only [bind, Except.bind, pure, Except.pure]
      constructor
      · intro found
        split at found
        · cases found
        · rename_i notDirectory
          split at found
          · rename_i parent
            cases found
            exact ⟨rfl, notDirectory, parent⟩
          · cases found
          · cases found
      · rintro ⟨same, notDirectory, parent⟩
        cases same
        split
        · rename_i isDirectory
          exact absurd isDirectory notDirectory
        · rw [parent]

theorem writable_of_directory (space : Workspace) (path : Path) (location : Location)
    (located : space.locate path = .ok location)
    (isDirectory : space.entryAt? location = some .directory) :
    space.writable path = .error .isDirectory := by
  simp [writable, located, isDirectory, bind, Except.bind, throw, throwThe, MonadExceptOf.throw]

theorem ne_nil_of_writable {space : Workspace} {path : Path} {location : Location}
    (found : space.writable path = .ok location) : location ≠ [] := by
  intro root
  have notDirectory := ((writable_eq_ok space path location).mp found).2.1
  rw [root] at notDirectory
  exact notDirectory (entryAt?_nil space)

/-! Walks only look at directories, and no file is written over a directory. -/

theorem entryAt?_setEntry_directory {space : Workspace} {path : Path} {location : Location}
    (found : space.writable path = .ok location) (bytes : ByteArray) (other : Location)
    (isDirectory : space.entryAt? other = some .directory) :
    (space.setEntry location (.file bytes)).entryAt? other = some .directory := by
  have notDirectory := ((writable_eq_ok space path location).mp found).2.1
  have different : ¬ other = location := fun same => notDirectory (same ▸ isDirectory)
  rw [entryAt?_setEntry space location other _ (ne_nil_of_writable found), if_neg different]
  exact isDirectory

theorem walk_of_directories {space later : Workspace}
    (kept : ∀ location, space.entryAt? location = some .directory →
      later.entryAt? location = some .directory) :
    ∀ names start location, space.walk start names = .ok location →
      later.walk start names = .ok location := by
  intro names
  induction names with
  | nil =>
      intro start location found
      simpa [walk] using found
  | cons name rest ih =>
      intro start location found
      simp only [walk] at found ⊢
      split at found
      · rename_i isDirectory
        rw [kept start isDirectory]
        exact ih _ location found
      · cases found
      · cases found

theorem walk_concat (space : Workspace) (name : String) (location : Location) :
    ∀ names start, space.walk start (names ++ [name]) = .ok location ↔
      ∃ parent, space.walk start names = .ok parent ∧ space.entryAt? parent = some .directory ∧
        location = if name = ".." then parent.dropLast else parent ++ [name] := by
  intro names
  induction names with
  | nil =>
      intro start
      simp only [List.nil_append, walk, Except.ok.injEq, exists_eq_left']
      cases here : space.entryAt? start with
      | none => simp
      | some entry => cases entry <;> simp [eq_comm]
  | cons first rest ih =>
      intro start
      simp only [List.cons_append, walk]
      cases here : space.entryAt? start with
      | none => simp
      | some entry =>
          cases entry with
          | directory => exact ih _
          | file bytes => simp

theorem locate_eq_ok (space : Workspace) (path : Path) (location : Location) :
    space.locate path = .ok location ↔
      path.parts.any (·.toList.contains '\x00') = false ∧
        space.walk (if path.isAbsolute then [] else space.current) path.parts = .ok location := by
  unfold locate
  cases nul : path.parts.any (·.toList.contains '\x00') <;> simp

/-- A longer name in the directory of a writable file is a place of its own. -/
theorem locate_withEnding {space : Workspace} {path beside : Path} {location : Location}
    {ending : String} (named : path.withEnding? ending = some beside)
    (plain : ending.toList.contains '\x00' = false) (long : 2 < ending.length)
    (found : space.locate path = .ok location) :
    ∃ place, space.locate beside = .ok place ∧ place ≠ location ∧
      space.entryAt? place.dropLast = some .directory := by
  simp only [Path.withEnding?, List.isEmpty_iff] at named
  split at named
  · cases named
  · rename_i nonempty
    cases named
    obtain ⟨noNul, walked⟩ := (locate_eq_ok space path location).mp found
    have parts : path.parts = path.parts.dropLast ++ [path.name] := by
      simp [Path.name, List.getLast?_eq_some_getLast nonempty, List.dropLast_concat_getLast]
    have longName : 2 < (path.name ++ ending).length := by
      rw [String.length_append]
      omega
    -- The longer name is no way up, so it leads below the parent as any name does.
    have notUp : path.name ++ ending ≠ ".." := by
      intro same
      rw [same] at longName
      exact absurd longName (by decide)
    rw [parts] at walked noNul
    obtain ⟨parent, walkedParent, isDirectory, place⟩ :=
      (walk_concat space path.name location path.parts.dropLast _).mp walked
    refine ⟨parent ++ [path.name ++ ending], (locate_eq_ok space _ _).mpr ⟨?_, ?_⟩, ?_, ?_⟩
    · simp only [List.any_append, List.any_cons, List.any_nil, Bool.or_false,
        Bool.or_eq_false_iff] at noNul ⊢
      refine ⟨noNul.1, ?_⟩
      simp only [String.toList_append, List.contains_append, Bool.or_eq_false_iff]
      exact ⟨noNul.2, plain⟩
    · refine (walk_concat space _ _ _ _).mpr ⟨parent, walkedParent, isDirectory, ?_⟩
      rw [if_neg notUp]
    · intro same
      rw [place] at same
      split at same
      · have lengths := congrArg List.length same
        simp at lengths
        omega
      · have names : path.name ++ ending = path.name := by simpa using same
        have lengths := congrArg String.length names
        rw [String.length_append] at lengths
        omega
    · simpa using isDirectory

end SheetScript.Files.Workspace
