import ProductTemplates.Proofs.Product.Tracking

/-! What keeps a product from being loaded. Whatever is in the folders of descriptors does not: what
is no content, or cannot be read, is passed over. Such a folder may be missing as well, but a file, a
pipe or a link to one of them in its place is an error. -/
namespace ProductTemplates.Disk

variable {d : Disk} {product category : String} {names : List String}
  {entries : List (String × FileTree)}

/-- Whether an entry at a path is in the way of a folder: a file or a pipe, or a link that leads to
something other than a folder. -/
def InTheWay (d : Disk) (path : String) : FileTree → Prop
  | .folder _ => False
  | .file _ | .pipe => True
  | .link _ => d.leadsAstray path = true

/-- Of what a product's folder lists for a category, only what is in the way leads astray. -/
theorem leadsAstray_iff (found : d.found? product = some (names, .folder entries))
    (known : category ∈ categories) :
    d.leadsAstray (Path.join product category) = true ↔
      ∃ node, entries.lookup category = some node ∧
        d.InTheWay (Path.join product category) node := by
  obtain ⟨clean, plain⟩ := category_isEntry known
  cases entry : entries.lookup category with
  | none =>
    have nothing := found?_join_free found clean plain entry
    simp [leadsAstray, has, nothing]
  | some node =>
    simp only [Option.some.injEq, exists_eq_left']
    cases node with
    | link target => rfl
    | folder _ | file _ | pipe =>
      have there := found?_join_entry found clean plain entry (by simp)
      simp [leadsAstray, has, isFolder, there, InTheWay, FileTree.isFolder]

theorem firstBlocked?_eq_none_iff (found : d.found? product = some (names, .folder entries)) :
    d.firstBlocked? product = none ↔ ∀ category ∈ categories, ∀ node,
      entries.lookup category = some node → ¬ d.InTheWay (Path.join product category) node := by
  rw [firstBlocked?, List.find?_eq_none]
  refine forall₂_congr fun category known => ?_
  rw [leadsAstray_iff found known]
  simp only [not_exists, not_and]

/-- What loading a product comes to. A product that is no folder is missing. Any other one is loaded,
whatever its folder and those below it hold, unless something is in the way of one of the folders of
descriptors; the first of these is reported then. -/
theorem rawTemplates_outcome (d : Disk) (product : String) :
    (d.isFolder product = false → d.rawTemplates product = .error (.productMissing product)) ∧
    ∀ names entries, d.found? product = some (names, .folder entries) →
      (∀ category, d.firstBlocked? product = some category →
        d.rawTemplates product = .error (.folderUnreadable (Path.join product category))) ∧
      (d.firstBlocked? product = none →
        d.rawTemplates product = .ok (descriptors (d.categoryContents product))) ∧
      (d.firstBlocked? product = none ↔ ∀ category ∈ categories, ∀ node,
        entries.lookup category = some node → ¬ d.InTheWay (Path.join product category) node) := by
  refine ⟨fun missing => ?_, fun names entries found => ?_⟩
  · rw [rawTemplates, missing]
    rfl
  · have folder : d.isFolder product = true := isFolder_iff.2 ⟨names, entries, found⟩
    rw [rawTemplates_of_folder folder]
    refine ⟨fun category first => ?_, fun free => ?_, firstBlocked?_eq_none_iff found⟩
    · rw [first]
    · rw [free]

/-- A file in place of the instance templates, as it would be read as one of them. -/
def misplaced : Disk :=
  productDisk [("instance-templates", .file "name: Small\n".toUTF8.toList)]

/-- The product is a folder, and all that is in it is content, but it cannot be loaded. -/
theorem rawTemplates_outcome_misplaced :
    misplaced.isFolder "product" = true ∧
    misplaced.rawTemplates "product" =
      .error (.folderUnreadable (Path.join "product" "instance-templates")) := by
  have found := found?_productDisk [("instance-templates", .file "name: Small\n".toUTF8.toList)]
  have known : "instance-templates" ∈ categories := by simp [categories]
  have astray : misplaced.leadsAstray (Path.join "product" "instance-templates") = true :=
    (leadsAstray_iff found known).2 ⟨_, rfl, trivial⟩
  have first : misplaced.firstBlocked? "product" = some "instance-templates" := by
    rw [firstBlocked?, categories, List.find?_cons, astray]
  refine ⟨isFolder_iff.2 ⟨_, _, found⟩, ?_⟩
  exact ((rawTemplates_outcome misplaced "product").2 _ _ found).1 _ first

end ProductTemplates.Disk
