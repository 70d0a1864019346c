import ProductTemplates.Proofs.Product.Tracking

/-! The bytes of a product's content as a canonical form. What counts in a folder is what it shows
under paths of names, in whatever order its entries are listed; the bytes are the same exactly if the
same is shown. -/
namespace ProductTemplates

/-- What stands under a path of names: a folder, or a file with its bytes. -/
inductive Sight where
  | folder
  | file (bytes : Bytes)
deriving Repr, DecidableEq, Inhabited

inductive Contents.Holds : Contents → List String → Sight → Prop where
  | folder {cs inner : Contents} {name : String} : (name, .folder inner) ∈ cs →
      Holds cs [name] .folder
  | file {cs : Contents} {name : String} {bytes : Bytes} : (name, .file bytes) ∈ cs →
      Holds cs [name] (.file bytes)
  | inside {cs inner : Contents} {name : String} {path : List String} {sight : Sight} :
      (name, .folder inner) ∈ cs → Holds inner path sight → Holds cs (name :: path) sight

/-- What the entries of the folder at a path show: its folders and files, the files that its links lead
to, and what the folders show in turn, but nothing that is hidden. -/
inductive Disk.EntriesShow (d : Disk) :
    String → List (String × FileTree) → List String → Sight → Prop where
  | folder {base name : String} {entries inner : List (String × FileTree)} :
      (name, .folder inner) ∈ entries → Content.isHidden name = false →
      EntriesShow d base entries [name] .folder
  | file {base name : String} {entries : List (String × FileTree)} {bytes : Bytes} :
      (name, .file bytes) ∈ entries → Content.isHidden name = false →
      EntriesShow d base entries [name] (.file bytes)
  | link {base name target : String} {entries : List (String × FileTree)} {bytes : Bytes} :
      (name, .link target) ∈ entries → Content.isHidden name = false →
      d.read? (Path.join base name) = some bytes → EntriesShow d base entries [name] (.file bytes)
  | inside {base name : String} {entries inner : List (String × FileTree)} {path : List String}
      {sight : Sight} : (name, .folder inner) ∈ entries → Content.isHidden name = false →
      EntriesShow d (Path.join base name) inner path sight →
      EntriesShow d base entries (name :: path) sight

/-- What the folder to which a path leads shows under a path of names. -/
def Disk.Shows (d : Disk) (base : String) (path : List String) (sight : Sight) : Prop :=
  ∃ names entries, d.found? base = some (names, .folder entries) ∧
    d.EntriesShow base entries path sight

/-- Content in which the entries of every folder are sorted by name and no name stands twice. -/
inductive Content.IsCanonical : Content → Prop where
  | folder {entries : Contents} : entries.Pairwise (fun a b => a.1 ≤ b.1) →
      (entries.map (·.1)).Nodup → (∀ e ∈ entries, IsCanonical e.2) → IsCanonical (.folder entries)
  | file {bytes : Bytes} : IsCanonical (.file bytes)

namespace Contents

variable {cs ds inner inner' : Contents} {name : String} {path : List String} {sight : Sight}
  {content content' : Content}

theorem Holds.ne_nil (h : cs.Holds path sight) : path ≠ [] := by
  cases h <;> exact List.cons_ne_nil _ _

theorem eq_of_mem (distinct : (cs.map (·.1)).Nodup) (member : (name, content) ∈ cs)
    (member' : (name, content') ∈ cs) : content = content' := by
  rw [← lookup_eq_some_iff distinct] at member member'
  exact Option.some.inj (member.symm.trans member')

theorem holds_inside_iff (distinct : (cs.map (·.1)).Nodup) (member : (name, .folder inner) ∈ cs)
    (below : path ≠ []) : cs.Holds (name :: path) sight ↔ inner.Holds path sight := by
  constructor
  · intro h
    cases h with
    | folder | file => contradiction
    | inside member' held =>
      obtain rfl := Content.folder.inj (eq_of_mem distinct member member')
      exact held
  · exact .inside member

theorem holds_congr (same : ∀ path sight, cs.Holds path sight ↔ ds.Holds path sight)
    (distinct : (cs.map (·.1)).Nodup) (distinct' : (ds.map (·.1)).Nodup)
    (member : (name, .folder inner) ∈ cs) (member' : (name, .folder inner') ∈ ds)
    (path : List String) (sight : Sight) : inner.Holds path sight ↔ inner'.Holds path sight := by
  by_cases below : path = []
  · subst below
    exact ⟨fun h => absurd rfl h.ne_nil, fun h => absurd rfl h.ne_nil⟩
  · rw [← holds_inside_iff distinct member below, ← holds_inside_iff distinct' member' below, same]

/-- An entry is found again where the same is held, if what folders hold tells them apart. -/
theorem mem_of_holds (same : ∀ path sight, cs.Holds path sight ↔ ds.Holds path sight)
    (folders : ∀ inner inner', (name, .folder inner) ∈ cs → (name, .folder inner') ∈ ds →
      inner = inner') (member : (name, content) ∈ cs) : (name, content) ∈ ds := by
  cases content with
  | file bytes =>
    have held : ds.Holds [name] (.file bytes) := (same _ _).1 (.file member)
    cases held with
    | file member' => exact member'
    | inside _ held => exact absurd rfl held.ne_nil
  | folder inner =>
    have held : ds.Holds [name] .folder := (same _ _).1 (.folder member)
    cases held with
    | folder member' => exact folders _ _ member member' ▸ member'
    | inside _ held => exact absurd rfl held.ne_nil

/-- Canonical content is told by what it holds. -/
theorem eq_of_holds (canonical : (Content.folder cs).IsCanonical)
    (canonical' : (Content.folder ds).IsCanonical)
    (same : ∀ path sight, cs.Holds path sight ↔ ds.Holds path sight) : cs = ds := by
  generalize whole : Content.folder cs = content at canonical
  induction canonical generalizing cs ds with
  | file => contradiction
  | @folder entries sorted distinct _ ih =>
    obtain rfl := Content.folder.inj whole
    cases canonical' with | folder sorted' distinct' canonical' =>
    have folders (name : String) (inner inner' : Contents) (member : (name, .folder inner) ∈ cs)
        (member' : (name, .folder inner') ∈ ds) : inner = inner' :=
      ih _ member (canonical' _ member') (holds_congr same distinct distinct' member member') rfl
    have perm : cs.Perm ds := by
      rw [List.perm_ext_iff_of_nodup distinct.of_map distinct'.of_map]
      rintro ⟨name, content⟩
      constructor
      · exact mem_of_holds same (folders name)
      · refine mem_of_holds (fun path sight => (same path sight).symm) fun inner inner' here there => ?_
        exact (folders name inner' inner there here).symm
    exact Text.eq_of_perm_of_pairwise sorted sorted' perm distinct

end Contents

namespace Disk

variable {d : Disk} {base name : String} {cs : Contents} {content : Content} {path : List String}
  {sight : Sight} {entries : List (String × FileTree)} {node : FileTree}

theorem ofNode?_eq_folder (counts : Content.ofNode? d base name node = some (.folder cs)) :
    Content.isHidden name = false ∧ ∃ inner, node = .folder inner ∧
      cs = Text.sortOn (·.1) (Content.ofEntries d (Path.join base name) inner) := by
  unfold Content.ofNode? at counts
  split at counts
  · next inner =>
    split at counts
    · contradiction
    · next shown =>
      exact ⟨by simpa using shown, inner, rfl, (Content.folder.inj (Option.some.inj counts)).symm⟩
  · split at counts <;> cases counts
  · split at counts
    · contradiction
    · simp at counts
  · contradiction

theorem ofNode?_eq_file {bytes : Bytes}
    (counts : Content.ofNode? d base name node = some (.file bytes)) :
    Content.isHidden name = false ∧ (node = .file bytes ∨
      ∃ target, node = .link target ∧ d.read? (Path.join base name) = some bytes) := by
  unfold Content.ofNode? at counts
  split at counts
  · split at counts <;> cases counts
  · split at counts
    · contradiction
    · next shown =>
      obtain rfl := Content.file.inj (Option.some.inj counts)
      exact ⟨by simpa using shown, .inl rfl⟩
  · next target =>
    split at counts
    · contradiction
    · next shown =>
      obtain ⟨_, read, same⟩ := Option.map_eq_some_iff.1 counts
      obtain rfl := Content.file.inj same
      exact ⟨by simpa using shown, .inr ⟨target, rfl, read⟩⟩
  · contradiction

/-- The content of a folder holds what its entries show. -/
theorem holds_of_entriesShow (h : d.EntriesShow base entries path sight) :
    Contents.Holds (Text.sortOn (·.1) (Content.ofEntries d base entries)) path sight := by
  have counts {base name : String} {entries : List (String × FileTree)} {node : FileTree}
      {content : Content} (member : (name, node) ∈ entries)
      (counts : Content.ofNode? d base name node = some content) :
      (name, content) ∈ Text.sortOn (·.1) (Content.ofEntries d base entries) :=
    Text.mem_sortOn.2 (Content.mem_ofEntries.2 ⟨node, member, counts⟩)
  induction h with
  | folder member shown =>
    exact .folder (counts member (by rw [Content.ofNode?, if_neg (by simp [shown])]))
  | file member shown =>
    exact .file (counts member (by rw [Content.ofNode?, if_neg (by simp [shown])]))
  | link member shown read =>
    exact .file (counts member (by rw [Content.ofNode?, if_neg (by simp [shown]), read, Option.map_some]))
  | inside member shown _ ih =>
    exact .inside (counts member (by rw [Content.ofNode?, if_neg (by simp [shown])])) ih

theorem entriesShow_of_holds (h : cs.Holds path sight)
    (same : cs = Text.sortOn (·.1) (Content.ofEntries d base entries)) :
    d.EntriesShow base entries path sight := by
  induction h generalizing base entries with
  | @folder cs inner name member =>
    rw [same, Text.mem_sortOn, Content.mem_ofEntries] at member
    obtain ⟨node, listed, counts⟩ := member
    obtain ⟨shown, inner', rfl, -⟩ := ofNode?_eq_folder counts
    exact .folder listed shown
  | @file cs name bytes member =>
    rw [same, Text.mem_sortOn, Content.mem_ofEntries] at member
    obtain ⟨node, listed, counts⟩ := member
    obtain ⟨shown, rfl | ⟨target, rfl, read⟩⟩ := ofNode?_eq_file counts
    · exact .file listed shown
    · exact .link listed shown read
  | @inside cs inner name path sight member _ ih =>
    rw [same, Text.mem_sortOn, Content.mem_ofEntries] at member
    obtain ⟨node, listed, counts⟩ := member
    obtain ⟨shown, inner', rfl, contents⟩ := ofNode?_eq_folder counts
    exact .inside listed shown (ih contents)

theorem holds_iff_shows (read : d.contents? base = some cs) :
    cs.Holds path sight ↔ d.Shows base path sight := by
  obtain ⟨names, entries, found, rfl⟩ := contents?_eq_some_iff.1 read
  constructor
  · exact fun held => ⟨names, entries, found, entriesShow_of_holds held rfl⟩
  · rintro ⟨names', entries', found', shown⟩
    obtain ⟨rfl, rfl⟩ : names = names' ∧ entries = entries' := by simpa [found] using found'
    exact holds_of_entriesShow shown

theorem sortOn_ofEntries_isCanonical (distinct : (entries.map (·.1)).Nodup)
    (canonical : ∀ e ∈ entries, ∀ content, Content.ofNode? d base e.1 e.2 = some content →
      content.IsCanonical) :
    (Content.folder (Text.sortOn (·.1) (Content.ofEntries d base entries))).IsCanonical := by
  refine .folder (Text.pairwise_sortOn _ _)
    (Text.nodup_sortOn (Content.names_ofEntries_sublist.nodup distinct)) ?_
  rintro ⟨name, content⟩ member
  obtain ⟨node, member, counts⟩ := Content.mem_ofEntries.1 (Text.mem_sortOn.1 member)
  exact canonical _ member content counts

theorem ofNode?_isCanonical (sound : node.Sound)
    (counts : Content.ofNode? d base name node = some content) : content.IsCanonical := by
  induction sound generalizing base name content with
  | folder distinct _ _ ih =>
    cases content with
    | file => exact .file
    | folder inner =>
      obtain ⟨-, _, same, rfl⟩ := ofNode?_eq_folder counts
      obtain rfl := FileTree.folder.inj same
      exact sortOn_ofEntries_isCanonical distinct fun e member _ counts => ih e member counts
  | file | link | pipe =>
    cases content with
    | file => exact .file
    | folder =>
      obtain ⟨-, _, same, -⟩ := ofNode?_eq_folder counts
      cases same

theorem contents?_isCanonical (sound : d.root.Sound) (read : d.contents? base = some cs) :
    (Content.folder cs).IsCanonical := by
  obtain ⟨names, entries, found, rfl⟩ := contents?_eq_some_iff.1 read
  cases found?_sound sound found with | folder distinct _ sounds =>
  exact sortOn_ofEntries_isCanonical distinct fun e member _ counts =>
    ofNode?_isCanonical (sounds e member) counts

section Agreement

variable {d₁ d₂ : Disk} {p₁ p₂ : String}

/-- Two folders have content, and its bytes are the same exactly if the folders show the same under
all paths of names. The bytes behind a content key tell the digest and the depth limit. -/
theorem bytes_eq_iff_shows (sound₁ : d₁.root.Sound) (sound₂ : d₂.root.Sound)
    (folder₁ : d₁.isFolder p₁ = true) (folder₂ : d₂.isFolder p₂ = true) :
    (∃ cs₁ cs₂, d₁.contents? p₁ = some cs₁ ∧ d₂.contents? p₂ = some cs₂ ∧
      (cs₁.bytes = cs₂.bytes ↔ ∀ path sight, d₁.Shows p₁ path sight ↔ d₂.Shows p₂ path sight)) ∧
    ∀ digest digest' depth depth', depth < UInt64.size → depth' < UInt64.size →
      (keyBytes digest depth = keyBytes digest' depth' ↔ digest = digest' ∧ depth = depth') := by
  obtain ⟨cs₁, read₁⟩ := isFolder_iff_contents.1 folder₁
  obtain ⟨cs₂, read₂⟩ := isFolder_iff_contents.1 folder₂
  refine ⟨⟨cs₁, cs₂, read₁, read₂, ?_⟩, fun digest digest' depth depth' fits fits' => ?_⟩
  · simp only [← holds_iff_shows read₁, ← holds_iff_shows read₂]
    constructor
    · intro same
      obtain rfl := Contents.bytes_inj (contents?_sound sound₁ read₁).1
        (contents?_sound sound₂ read₂).1 same
      exact fun path sight => Iff.rfl
    · intro same
      rw [Contents.eq_of_holds (contents?_isCanonical sound₁ read₁)
        (contents?_isCanonical sound₂ read₂) same]
  · constructor
    · exact keyBytes_inj fits fits'
    · rintro ⟨rfl, rfl⟩
      rfl

end Agreement

/-- A product with an empty folder, a file and a link to it, and things that do not count. -/
def linkedEntries : List (String × FileTree) :=
  [("b", .folder []), ("a.txt", .file [0]), (".git", .folder []), ("c", .link "a.txt"), ("p", .pipe)]

/-- What counts of it in another order, and with copies in the place of links. -/
def copiedEntries : List (String × FileTree) :=
  [("c", .file [0]), ("b", .folder [(".x", .file [1])]), ("a.txt", .file [0])]

theorem read?_linked : (productDisk linkedEntries).read? (Path.join "product" "c") = some [0] := by
  have steps : Path.steps (Path.join "product" "c") = ["product", "c"] := by decide +kernel
  have relative : Path.isAbsolute (Path.join "product" "c") = false := by decide +kernel
  have target : Path.steps "a.txt" = ["a.txt"] := by decide +kernel
  have near : Path.isAbsolute "a.txt" = false := by decide +kernel
  have top : (productDisk linkedEntries).root.get? [] = some (productDisk linkedEntries).root := rfl
  have inside : (productDisk linkedEntries).root.get? ["product"] = some (.folder linkedEntries) := rfl
  have plain (step : String) (known : step ∈ ["product", "a.txt", "c"]) : IsEntryStep step := by
    simp only [List.mem_cons, List.not_mem_nil, or_false] at known
    rcases known with rfl | rfl | rfl
    all_goals exact ⟨by decide, by decide, by decide⟩
  refine read?_eq_some_iff.2 ⟨["product", "a.txt"], found?_eq_some_iff.2 ?_⟩
  rw [place?, if_neg (by decide +kernel), steps, relative]
  calc walk (productDisk linkedEntries).root true maxLinks [] ["product", "c"]
    _ = walk (productDisk linkedEntries).root true maxLinks ["product"] ["c"] :=
      walk_entry top (plain _ (by simp)) rfl (fun _ link => by cases link)
    _ = walk (productDisk linkedEntries).root true 39 ["product"] ["a.txt"] := by
      rw [maxLinks, walk_link inside (plain _ (by simp)) rfl (by simp), near, target]
      rfl
    _ = walk (productDisk linkedEntries).root true 39 ["product", "a.txt"] [] :=
      walk_entry inside (plain _ (by simp)) rfl (fun _ link => by cases link)
    _ = some (.found ["product", "a.txt"] (.file [0])) := by
      rw [walk]
      rfl

theorem contents?_linked : (productDisk linkedEntries).contents? "product" =
    some [("a.txt", .file [0]), ("b", .folder []), ("c", .file [0])] := by
  have hidden : Content.isHidden ".git" = true := by decide +kernel
  have shown : Content.isHidden "a.txt" = false ∧ Content.isHidden "b" = false ∧
      Content.isHidden "c" = false := by decide +kernel
  have link := read?_linked
  rw [linkedEntries] at link
  refine contents?_eq_some_iff.2 ⟨_, _, found?_productDisk linkedEntries, ?_⟩
  simp [linkedEntries, Content.ofEntries, Content.ofNode?, hidden, shown, link, Text.sortOn,
    List.mergeSort]

theorem contents?_copied : (productDisk copiedEntries).contents? "product" =
    some [("a.txt", .file [0]), ("b", .folder []), ("c", .file [0])] := by
  have hidden : Content.isHidden ".x" = true := by decide +kernel
  have shown : Content.isHidden "a.txt" = false ∧ Content.isHidden "b" = false ∧
      Content.isHidden "c" = false := by decide +kernel
  refine contents?_eq_some_iff.2 ⟨_, _, found?_productDisk copiedEntries, ?_⟩
  simp [copiedEntries, Content.ofEntries, Content.ofNode?, hidden, shown, Text.sortOn, List.mergeSort]

/-- The copy shows what the product does, and neither the depth limit nor the digest is lost. -/
theorem shows_copied :
    (∀ path sight, (productDisk linkedEntries).Shows "product" path sight ↔
      (productDisk copiedEntries).Shows "product" path sight) ∧
    keyBytes "a" 64 ≠ keyBytes "a" 65 ∧ keyBytes "a" 64 ≠ keyBytes "b" 64 := by
  have name (name : String) (known : name ∈ ["b", "a.txt", ".git", "c", "p", ".x"]) :
      IsFileName name := by
    simp only [List.mem_cons, List.not_mem_nil, or_false] at known
    rcases known with rfl | rfl | rfl | rfl | rfl | rfl
    all_goals exact ⟨by decide, by decide, by decide⟩
  have empty : (FileTree.folder []).Sound := .folder (by simp) (by simp) (by simp)
  have file (byte : UInt8) : (FileTree.file [byte]).Sound := .file (by simp [UInt64.size])
  have sound₁ : (productDisk linkedEntries).root.Sound := by
    apply productDisk_sound
    refine .folder (by decide) (by simp [linkedEntries, name]) ?_
    simp [linkedEntries, empty, file, FileTree.Sound.link, FileTree.Sound.pipe]
  have sound₂ : (productDisk copiedEntries).root.Sound := by
    apply productDisk_sound
    have inner : (FileTree.folder [(".x", .file [1])]).Sound :=
      .folder (by simp) (by simp [name]) (by simp [file])
    refine .folder (by decide) (by simp [copiedEntries, name]) ?_
    simp [copiedEntries, file, inner]
  obtain ⟨⟨cs₁, cs₂, read₁, read₂, same⟩, keys⟩ := bytes_eq_iff_shows sound₁ sound₂
    (isFolder_iff_contents.2 ⟨_, contents?_linked⟩) (isFolder_iff_contents.2 ⟨_, contents?_copied⟩)
  refine ⟨same.1 ?_, fun equal => ?_, fun equal => ?_⟩
  · obtain rfl := Option.some.inj (contents?_linked.symm.trans read₁)
    obtain rfl := Option.some.inj (contents?_copied.symm.trans read₂)
    rfl
  · have depths := ((keys _ _ 64 65 (by decide) (by decide)).1 equal).2
    contradiction
  · have digests := ((keys "a" "b" _ _ (by decide) (by decide)).1 equal).1
    contradiction

end Disk

end ProductTemplates
