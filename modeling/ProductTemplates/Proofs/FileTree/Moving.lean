import ProductTemplates.Proofs.FileTree.Making

/-! A file that is written under a new name and moved: whatever is read where it was moved to are its
bytes, wherever the paths lead. -/
namespace ProductTemplates

namespace FileTree

variable {t node : FileTree} {names path : List String} {name : String}
  {es : List (String × FileTree)}

theorem isFolder_of_get? (inside : t.get? names = some (folder es)) : t.isFolder = true := by
  cases names with
  | nil =>
    obtain rfl := Option.some.inj inside
    rfl
  | cons name rest =>
    cases t with
    | folder => rfl
    | file | link | pipe => simp [get?, child?] at inside

theorem exists_entry_of_get? (there : t.get? names = some node) (root : t.isFolder = true)
    (plain : node.isFolder = false) : ∃ outer name es, names = outer ++ [name] ∧
      t.get? outer = some (folder es) ∧ es.lookup name = some node := by
  rcases List.eq_nil_or_concat names with rfl | ⟨outer, name, rfl⟩
  · obtain rfl := Option.some.inj there
    rw [root] at plain
    contradiction
  · rw [List.concat_eq_append] at there ⊢
    obtain ⟨mid, above, below⟩ := get?_append_eq_some_iff.1 there
    cases mid with
    | folder es => exact ⟨outer, name, es, rfl, above, (get?_entry above).symm.trans there⟩
    | file | link | pipe => simp [get?, child?] at below

end FileTree

namespace Disk

open FileTree

variable {d d' : Disk} {source target path name : String} {folder names : List String}
  {node : FileTree} {es : List (String × FileTree)} {bytes bytes' : Bytes} {place : Place}

theorem ownPlace?_of_place? (h : d.place? path = some place) : d.ownPlace? path = some place ∨
    ∃ names target, d.ownPlace? path = some (.found names (.link target)) := by
  unfold place? at h
  unfold ownPlace?
  split at h
  · contradiction
  · next given =>
    rw [if_neg given]
    exact walk_own h

/-- A file that is written where nothing was is a new entry of a folder. -/
theorem ownPlace?_of_write? (fresh : ∀ names node, d.ownPlace? path ≠ some (.found names node))
    (h : d.write? path bytes = some d') : ∃ folder name es, d.root.get? folder = some (.folder es) ∧
      es.lookup name = none ∧ d' = d.put (folder ++ [name]) (.file bytes) ∧
        d'.ownPlace? path = some (.found (folder ++ [name]) (.file bytes)) := by
  have own {place : Place} (through : d.place? path = some place) : d.ownPlace? path = some place := by
    rcases ownPlace?_of_place? through with same | ⟨names, target, link⟩
    · exact same
    · exact absurd link (fresh _ _)
  unfold write? at h
  split at h
  · next names old place => exact absurd (own place) (fresh _ _)
  · next folder name place =>
    obtain rfl := Option.some.inj h
    have vacant := own place
    unfold ownPlace? at vacant
    split at vacant
    · contradiction
    · next given =>
      obtain ⟨es, there, free⟩ := free_of_walk vacant
      have entry : (d.root.put (folder ++ [name]) (.file bytes)).get? (folder ++ [name]) =
          some (.file bytes) := by
        rw [FileTree.put, get?_entry (get?_alter there), lookup_alterEntry_put]
      refine ⟨folder, name, es, there, free, rfl, ?_⟩
      rw [ownPlace?, if_neg given]
      exact walk_kept (grows_alter there free).keeps (by simp) vacant entry (by simp)
  · contradiction

theorem get?_of_walk {root node : FileTree} {follow : Bool} {links : Nat} {spot steps names : List String}
    (h : walk root follow links spot steps = some (.found names node)) :
    root.get? names = some node := by
  fun_induction walk root follow links spot steps with
  | case1 links spot =>
    obtain ⟨_, there, same⟩ := Option.map_eq_some_iff.1 h
    obtain ⟨rfl, rfl⟩ := Place.found.inj same
    exact there
  | case5 => cases h
  | case7 _ spot step rest entries folder _ _ _ target entry =>
    obtain ⟨rfl, rfl⟩ := Place.found.inj (Option.some.inj h)
    exact (get?_entry folder).trans entry
  | case2 _ _ _ _ _ ih | case3 _ _ _ _ _ _ ih | case9 _ _ _ _ _ _ _ _ _ _ _ _ ih
  | case10 _ _ _ _ _ _ _ _ _ _ _ _ ih => exact ih h
  | case4 | case6 | case8 | case11 => contradiction

/-- A path leads to an entry of a folder, to where one could be, or to a folder. -/
theorem folder_of_ownPlace? (h : d.ownPlace? path = some place) (root : d.root.isFolder = true)
    (file : ∀ names node, place = .found names node → node.isFolder = false) :
    ∃ folder name es, place.path = folder ++ [name] ∧ d.root.get? folder = some (.folder es) := by
  unfold ownPlace? at h
  split at h
  · contradiction
  · cases place with
    | vacant folder name =>
      obtain ⟨es, there, -⟩ := free_of_walk h
      exact ⟨folder, name, es, rfl, there⟩
    | found names node =>
      obtain ⟨folder, name, es, ends, inside, -⟩ :=
        exists_entry_of_get? (get?_of_walk h) root (file names node rfl)
      exact ⟨folder, name, es, ends, inside⟩

/-- What is moved takes the place of whatever is at the target, unless that is a folder. -/
theorem move?_eq_some (here : d.ownPlace? source = some (.found names node))
    (h : d.move? source target = some d') : ∃ place, d.ownPlace? target = some place ∧
      (∀ path other, place = .found path other → other.isFolder = false) ∧
        d' = { d with root := d.root.erase names }.put place.path node := by
  unfold move? at h
  rw [here] at h
  split at h
  · next free name _ same enters =>
    obtain ⟨rfl, rfl⟩ := Place.found.inj (Option.some.inj same)
    exact ⟨_, enters, by simp, (Option.some.inj h).symm⟩
  · next old other _ same enters =>
    obtain ⟨rfl, rfl⟩ := Place.found.inj (Option.some.inj same)
    split at h
    · contradiction
    · next plain =>
      refine ⟨_, enters, ?_, (Option.some.inj h).symm⟩
      intro _ _ same
      obtain ⟨-, rfl⟩ := Place.found.inj same
      simpa using plain
  · contradiction

/-- What is read of a file that was moved is what the file held. -/
theorem read?_of_move? (here : d.ownPlace? source = some (.found (folder ++ [name]) (.file bytes)))
    (inside : d.root.get? folder = some (.folder es))
    (single : (alterEntry name (fun _ => none) es).lookup name = none)
    (h : d.move? source target = some d') (read : d'.read? target = some bytes') : bytes' = bytes := by
  obtain ⟨path, found⟩ := read?_eq_some_iff.1 read
  obtain ⟨place, enters, plain, rfl⟩ := move?_eq_some here h
  have entry : es.lookup name = some (.file bytes) := by
    unfold ownPlace? at here
    split at here
    · contradiction
    · exact (get?_entry inside).symm.trans (get?_of_walk here)
  have top : d.root.isFolder = true := isFolder_of_get? inside
  obtain ⟨folder', name', es', ends, outer⟩ := folder_of_ownPlace? enters top plain
  rw [ends] at found
  have leaves : d.root.Keeps (d.root.erase (folder ++ [name])) :=
    keeps_alter inside fun old same => ⟨bytes, Option.some.inj (same.symm.trans entry)⟩
  obtain ⟨es'', outer'⟩ := leaves.folder outer
  have back := @alter_keeps _ _ name _ (fun _ => none) inside
    fun new same => absurd (same.symm.trans single) (by simp)
  have back' := @alter_keeps _ _ name' _ (fun _ => some (.file bytes)) outer' fun new same =>
    ⟨bytes, Option.some.inj (same.symm.trans lookup_alterEntry_put)⟩
  have put : ((d.root.erase (folder ++ [name])).put (folder' ++ [name']) (.file bytes)).get?
      (folder' ++ [name']) = some (.file bytes) := by
    rw [FileTree.put, get?_entry (get?_alter outer'), lookup_alterEntry_put]
  have there := get?_of_found? found
  have place' := found?_eq_some_iff.1 found
  unfold place? at place'
  unfold ownPlace? at enters
  split at place'
  · contradiction
  · next given =>
    rw [if_neg given] at enters
    have same := path_of_walk (back'.trans back) place' enters (by rw [ends]; exact put)
    rw [← same, ends] at there
    exact FileTree.file.inj (Option.some.inj (there.symm.trans put))

end Disk
end ProductTemplates
