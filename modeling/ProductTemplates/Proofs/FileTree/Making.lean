import ProductTemplates.Proofs.FileTree.Changing

/-! Making folders: nothing is lost, and what was made once is not made again. -/
namespace ProductTemplates.Disk

open FileTree

variable {d d' : Disk} {path : String} {paths names spot steps : List String} {name : String}
  {node node' : FileTree} {follow : Bool} {links : Nat} {made : Bool} {bytes : Bytes}

/-- A name that is still free is one of a folder. -/
theorem free_of_walk {root : FileTree} {folder : List String}
    (h : walk root follow links spot steps = some (.vacant folder name)) :
    ∃ es, root.get? folder = some (.folder es) ∧ es.lookup name = none := by
  fun_induction walk root follow links spot steps with
  | case1 links spot =>
    obtain ⟨_, -, same⟩ := Option.map_eq_some_iff.1 h
    cases same
  | case5 links spot step entries there _ _ _ free =>
    obtain ⟨rfl, rfl⟩ := Place.vacant.inj (Option.some.inj h)
    exact ⟨entries, there, free⟩
  | case7 => cases h
  | case2 _ _ _ _ _ ih | case3 _ _ _ _ _ _ ih | case9 _ _ _ _ _ _ _ _ _ _ _ _ ih
  | case10 _ _ _ _ _ _ _ _ _ _ _ _ ih => exact ih h
  | case4 | case6 | case8 | case11 => contradiction

theorem found?_of_keeps (keeps : d.root.Keeps d'.root) (here : d'.here = d.here)
    (found : d.found? path = some (names, node)) (there : d'.root.get? names = some node')
    (own : ∀ target, node' ≠ .link target) : d'.found? path = some (names, node') := by
  have place := found?_eq_some_iff.1 found
  rw [found?_eq_some_iff]
  unfold place? at place ⊢
  split at place
  · contradiction
  · next given =>
    rw [if_neg given, here]
    exact walk_kept keeps (by simp) place there own

theorem found?_of_grows (grows : d.root.Grows d'.root) (here : d'.here = d.here)
    (found : d.found? path = some (names, .file bytes)) : d'.found? path = some (names, .file bytes) := by
  obtain ⟨node, there, alike⟩ := grows _ _ (get?_of_found? found)
  rw [alike.file_eq] at there
  exact found?_of_keeps grows.keeps here found there (by simp)

theorem isFolder_of_keeps (keeps : d.root.Keeps d'.root) (here : d'.here = d.here)
    (folder : d.isFolder path = true) : d'.isFolder path = true := by
  obtain ⟨names, entries, found⟩ := isFolder_iff.1 folder
  obtain ⟨entries', there⟩ := keeps.folder (get?_of_found? found)
  exact isFolder_iff.2 ⟨names, entries', found?_of_keeps keeps here found there (by simp)⟩

theorem makeFolder?_eq_some (h : d.makeFolder? path = some d') :
    d.root.Grows d'.root ∧ d'.here = d.here ∧ d'.isFolder path = true := by
  unfold makeFolder? at h
  split at h
  · next folder =>
    obtain rfl := Option.some.inj h
    exact ⟨.refl _, rfl, folder⟩
  · split at h
    · next folder name vacant =>
      obtain rfl := Option.some.inj h
      unfold ownPlace? at vacant
      split at vacant
      · contradiction
      · next given =>
        obtain ⟨es, there, free⟩ := free_of_walk vacant
        have grows : d.root.Grows (d.root.put (folder ++ [name]) (.folder [])) :=
          grows_alter there free
        have entry : (d.root.put (folder ++ [name]) (.folder [])).get? (folder ++ [name]) =
            some (.folder []) := by
          rw [FileTree.put, get?_entry (get?_alter there), lookup_alterEntry_put]
        refine ⟨grows, rfl, isFolder_iff.2 ⟨folder ++ [name], [], ?_⟩⟩
        rw [found?_eq_some_iff, place?, if_neg given]
        exact walk_kept grows.keeps (by simp) vacant entry (by simp)
    · contradiction

/-- The first folders are made, up to one that cannot be made; making them again changes nothing. -/
theorem makeEach_again (h : d.makeEach paths = (made, d')) :
    d.root.Grows d'.root ∧ d'.here = d.here ∧ d'.makeEach paths = (made, d') := by
  induction paths generalizing d with
  | nil =>
    obtain ⟨rfl, rfl⟩ := Prod.mk.inj h
    exact ⟨.refl _, rfl, rfl⟩
  | cons path rest ih =>
    unfold makeEach at h
    split at h
    · next d₁ first =>
      obtain ⟨grows, here, folder⟩ := makeFolder?_eq_some first
      obtain ⟨grows', here', again⟩ := ih h
      have still : d'.makeFolder? path = some d' := by
        rw [makeFolder?, if_pos (isFolder_of_keeps grows'.keeps here' folder)]
      refine ⟨grows.trans grows', here'.trans here, ?_⟩
      rw [makeEach, still]
      exact again
    · next unmade =>
      obtain ⟨rfl, rfl⟩ := Prod.mk.inj h
      refine ⟨.refl _, rfl, ?_⟩
      rw [makeEach, unmade]

theorem isFolder_of_makeEach (h : d.makeEach paths = (true, d')) :
    ∀ path ∈ paths, d'.isFolder path = true := by
  induction paths generalizing d with
  | nil => simp
  | cons path rest ih =>
    unfold makeEach at h
    split at h
    · next d₁ first =>
      obtain ⟨-, -, folder⟩ := makeFolder?_eq_some first
      obtain ⟨grows, here, -⟩ := makeEach_again h
      exact List.forall_mem_cons.2 ⟨isFolder_of_keeps grows.keeps here folder, ih h⟩
    · cases (Prod.mk.inj h).1

theorem makeEach_of_folders (folders : ∀ path ∈ paths, d.isFolder path = true) :
    d.makeEach paths = (true, d) := by
  induction paths with
  | nil => rfl
  | cons path rest ih =>
    rw [List.forall_mem_cons] at folders
    rw [makeEach, makeFolder?, if_pos folders.1]
    exact ih folders.2

end ProductTemplates.Disk
