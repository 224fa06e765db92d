import TypedMarkup.CommandLine.FileTree
import TypedMarkup.Proofs.Success

/-!
Contract: what writing a file changes.

Owns: `FileTree.Filed`, that a path leads to a text and everything else is as it was, and the proof
that writing does it. A file is only put into a directory, so directories stay the same, and with
them the places that paths lead to.
-/

namespace TypedMarkup.FileTree

/-- A path leads to a file with a text, and all other files and all directories are as before. -/
structure Filed (before : FileTree) (path : Path) (text : String) (after : FileTree) : Prop where
  reads : after.read path = .ok text
  others : ∃ place, before.locate path = .ok (.inside place) ∧
    ∀ other, other ≠ place → after.content? other = before.content? other
  directories : ∀ place, after.isDirectory place = before.isDirectory place

section

variable {tree : FileTree} {path : Path} {place other : List String} {content : String}

/-! ## Contents -/

theorem content?_put :
    (tree.put place content).content? other =
      if other = place then some content else tree.content? other := by
  unfold put
  split
  · next present =>
    have sameFirst : (fun file : List String × String => file.1 == other) ∘
        (fun file => if file.1 == place then (place, content) else file) =
          fun file => file.1 == other := by
      funext file
      by_cases here : file.1 = place
      · simp [here]
      · simp [here]
    unfold content? at present ⊢
    rw [List.find?_map, sameFirst]
    cases found : tree.files.find? fun file => file.1 == other with
    | none =>
      have absent : other ≠ place := by
        rintro rfl
        simp [found] at present
      simp [absent]
    | some file =>
      have named : file.1 = other := by simpa using List.find?_some found
      by_cases here : other = place
      · simp [named, here]
      · simp [named, here]
  · next absent =>
    have none : (tree.files.find? fun file => file.1 == place) = none :=
      Option.map_eq_none_iff.mp (Option.not_isSome_iff_eq_none.mp absent)
    unfold content?
    rw [List.find?_append]
    by_cases here : other = place
    · subst here
      simp [none]
    · have elsewhere : ¬ place = other := fun same => here same.symm
      simp [here, elsewhere]

/-! ## Directories -/

theorem isDirectory_around (outer : other <+: place) (directory : tree.isDirectory place = true) :
    tree.isDirectory other = true := by
  unfold isDirectory at directory ⊢
  rcases Bool.or_eq_true_iff.mp directory with empty | below
  · rw [List.isEmpty_iff.mp empty, List.prefix_nil] at outer
    simp [outer]
  · obtain ⟨file, member, inside⟩ := List.any_eq_true.mp below
    rw [Bool.and_eq_true, bne_iff_ne, List.isPrefixOf_iff_prefix] at inside
    have further : other <+: file.1 := outer.trans inside.2
    have proper : file.1 ≠ other := by
      rintro rfl
      exact inside.1 (inside.2.eq_of_length_le outer.length_le).symm
    refine Bool.or_eq_true_iff.mpr (.inr (List.any_eq_true.mpr ⟨file, member, ?_⟩))
    rw [Bool.and_eq_true, bne_iff_ne, List.isPrefixOf_iff_prefix]
    exact ⟨proper, further⟩

theorem isDirectory_put {part : String} (directory : tree.isDirectory place = true) :
    (tree.put (place ++ [part]) content).isDirectory other = tree.isDirectory other := by
  unfold put
  split
  · have sameFirst : ∀ file : List String × String,
        (if file.1 == place ++ [part] then (place ++ [part], content) else file).1 = file.1 := by
      intro file
      by_cases here : file.1 = place ++ [part]
      · simp [here]
      · simp [here]
    simp only [isDirectory, List.any_map, Function.comp_def, sameFirst]
  -- A further file makes the places around it directories, which they are already.
  · by_cases outer : other <+: place
    · have before := isDirectory_around outer directory
      rw [before]
      unfold isDirectory at before ⊢
      rw [List.any_append, ← Bool.or_assoc, before, Bool.true_or]
    · have notProper :
          (place ++ [part] != other && other.isPrefixOf (place ++ [part])) = false := by
        rw [Bool.and_eq_false_iff, bne_eq_false_iff_eq, ← Bool.not_eq_true,
          List.isPrefixOf_iff_prefix, List.prefix_concat_iff]
        by_cases whole : other = place ++ [part]
        · exact .inl whole.symm
        · exact .inr fun inside => inside.elim whole outer
      simp only [isDirectory, List.any_append, List.any_cons, List.any_nil, notProper,
        Bool.or_false]

/-! ## Paths -/

theorem checkDirectory_eq_ok :
    tree.checkDirectory path (.inside place) = .ok () ↔ tree.isDirectory place = true := by
  rw [checkDirectory]
  split
  · next directory => simp [directory]
  · next notDirectory =>
    split
    · simp [notDirectory]
    · simp [notDirectory]

/-- A path ends where it begins, in a directory that it comes through, or in the directory around
that. -/
theorem walk_eq_inside {start : Place} {parts : List String}
    (walked : tree.walk path start parts = .ok (.inside place)) :
    start = .inside place ∨ ∃ directory, tree.isDirectory directory = true ∧
      ((∃ part, place = directory ++ [part]) ∨ place = directory.dropLast) := by
  induction parts generalizing start with
  | nil =>
    cases walked
    exact .inl rfl
  | cons part rest ih =>
    rw [walk] at walked
    obtain ⟨_, checked, behindCheck⟩ := bind_eq_ok.mp walked
    obtain ⟨next, stepped, behindStep⟩ := bind_eq_ok.mp behindCheck
    rcases ih behindStep with rfl | further
    -- This step is the last one, and it has been checked that it sets out from a directory.
    · cases start with
      | outside =>
        rw [step] at stepped
        split at stepped
        · cases stepped
        · cases stepped
      | inside directory =>
        refine .inr ⟨directory, checkDirectory_eq_ok.mp checked, ?_⟩
        rw [step] at stepped
        split at stepped
        · cases stepped
          exact .inl ⟨part, rfl⟩
        · split at stepped
          · cases stepped
          · cases stepped
            exact .inr rfl
    · exact .inr further

/-- A path that leads to no directory leads into one. -/
theorem locate_eq_inside (located : tree.locate path = .ok (.inside place))
    (noDirectory : tree.isDirectory place = false) :
    ∃ directory part, tree.isDirectory directory = true ∧ place = directory ++ [part] := by
  rcases walk_eq_inside located with start | ⟨directory, isDirectory, ⟨part, rfl⟩ | rfl⟩
  · split at start
    · cases start
    · cases start
      cases noDirectory
  · exact ⟨directory, part, isDirectory, rfl⟩
  · rw [isDirectory_around ( List.dropLast_prefix directory) isDirectory] at noDirectory
    cases noDirectory

theorem walk_of_directories {after : FileTree} {start found : Place} {parts : List String}
    (directories : ∀ place, after.isDirectory place = tree.isDirectory place)
    (walked : tree.walk path start parts = .ok found) :
    after.walk path start parts = .ok found := by
  induction parts generalizing start with
  | nil => exact walked
  | cons part rest ih =>
    rw [walk] at walked ⊢
    obtain ⟨_, checked, behindCheck⟩ := bind_eq_ok.mp walked
    obtain ⟨next, stepped, behindStep⟩ := bind_eq_ok.mp behindCheck
    have checkedAfter : after.checkDirectory path start = .ok () := by
      cases start with
      | outside => rfl
      | inside place =>
        rw [checkDirectory_eq_ok, directories]
        exact checkDirectory_eq_ok.mp checked
    exact bind_eq_ok.mpr ⟨(), checkedAfter,
      bind_eq_ok.mpr ⟨next, stepped, ih behindStep⟩⟩

/-! ## Reading and writing -/

theorem read_of_content? (located : tree.locate path = .ok (.inside place))
    (found : tree.content? place = some content) : tree.read path = .ok content := by
  unfold read
  refine bind_eq_ok.mpr ⟨.inside place, located, ?_⟩
  simp only [found]
  rfl

theorem write_eq_ok {after : FileTree} :
    tree.write path content = .ok after ↔
      ∃ place, tree.locate path = .ok (.inside place) ∧ tree.isDirectory place = false ∧
        tree.put place content = after := by
  unfold write
  rw [bind_eq_ok]
  constructor
  · rintro ⟨found, located, wrote⟩
    cases found with
    | outside => cases wrote
    | inside place =>
      dsimp only at wrote
      split at wrote
      · cases wrote
      · next noDirectory =>
        exact ⟨place, located, Bool.not_eq_true _ ▸ noDirectory, pure_eq_ok.mp wrote⟩
  · rintro ⟨place, located, noDirectory, rfl⟩
    refine ⟨.inside place, located, ?_⟩
    simp only [noDirectory]
    rfl

theorem filed_of_write {after : FileTree} (written : tree.write path content = .ok after) :
    tree.Filed path content after := by
  obtain ⟨place, located, noDirectory, rfl⟩ := write_eq_ok.mp written
  obtain ⟨directory, part, isDirectory, rfl⟩ := locate_eq_inside located noDirectory
  have directories : ∀ other, (tree.put (directory ++ [part]) content).isDirectory other =
      tree.isDirectory other := fun other => isDirectory_put isDirectory
  refine ⟨?_, ⟨_, located, ?_⟩, directories⟩
  · have locatedAfter : (tree.put (directory ++ [part]) content).locate path =
        .ok (.inside (directory ++ [part])) := walk_of_directories directories located
    refine read_of_content? locatedAfter ?_
    rw [content?_put, if_pos rfl]
  · intro other elsewhere
    rw [content?_put, if_neg elsewhere]

end

end TypedMarkup.FileTree
