import ProductTemplates.Proofs.Product.Canonical

/-! The files that loading visits: exactly the descriptors that a folder shows, each once, in the order
of their paths. The order goes by names, not by the text of a path: a folder's files stand together,
whatever its name goes on with elsewhere. -/
namespace ProductTemplates

open Document

/-- The order of paths: by the bytes of the first names that differ. -/
def PathBefore : List String → List String → Prop :=
  List.Lex fun s t => s.toUTF8.toList < t.toUTF8.toList

/-- Whether a name goes on with `.yaml` or `.yml`, in small or capital letters, after at least one
character. -/
def HasDescriptorExtension (name : String) : Prop :=
  ∃ stem ext, stem ≠ [] ∧ name.toList = stem ++ '.' :: ext ∧
    (ext.map Char.toLower = "yaml".toList ∨ ext.map Char.toLower = "yml".toList)

/-- A descriptor of a folder: a file that the folder shows under a path, with the extension. -/
def Disk.HasDescriptor (d : Disk) (base : String) (path : List String) (bytes : Bytes) : Prop :=
  d.Shows base path (.file bytes) ∧ ∃ name, path.getLast? = some name ∧ HasDescriptorExtension name

namespace Content

mutual
/-- The files in it, each with its path, in the order in which they are visited. -/
def located (name : String) : Content → List (List String × Bytes)
  | folder entries => (locatedAll entries).map fun f => (name :: f.1, f.2)
  | file bytes => [([name], bytes)]
def locatedAll : Contents → List (List String × Bytes)
  | [] => []
  | (name, content) :: rest => located name content ++ locatedAll rest
end

variable {name : String} {content : Content} {cs : Contents} {path : List String} {bytes : Bytes}
  {f : List String × Bytes}

def lastName (path : List String) : String := path.getLast?.getD ""

theorem locatedAll_eq (cs : Contents) : locatedAll cs = cs.flatMap fun e => located e.1 e.2 := by
  induction cs with
  | nil => rfl
  | cons e rest ih => rw [locatedAll, ih, List.flatMap_cons]

theorem filesOfAll_eq (cs : Contents) : filesOfAll cs = cs.flatMap fun e => files e.1 e.2 := by
  induction cs with
  | nil => rfl
  | cons e rest ih => rw [filesOfAll, ih, List.flatMap_cons]

theorem head_of_mem_located (h : f ∈ located name content) : ∃ rest, f.1 = name :: rest := by
  cases content with
  | file bytes =>
    rw [located, List.mem_singleton] at h
    exact ⟨[], by rw [h]⟩
  | folder entries =>
    rw [located, List.mem_map] at h
    obtain ⟨inner, -, rfl⟩ := h
    exact ⟨inner.1, rfl⟩

theorem ne_nil_of_mem_locatedAll (h : f ∈ locatedAll cs) : f.1 ≠ [] := by
  rw [locatedAll_eq, List.mem_flatMap] at h
  obtain ⟨e, -, inside⟩ := h
  obtain ⟨rest, begins⟩ := head_of_mem_located inside
  rw [begins]
  exact List.cons_ne_nil _ _

theorem files_eq (canonical : content.IsCanonical) (name : String) :
    files name content = (located name content).map fun f => (lastName f.1, f.2) := by
  induction canonical generalizing name with
  | file => rfl
  | @folder entries _ _ _ ih =>
    rw [files, located, List.map_map, filesOfAll_eq,
      List.flatMap_congr fun e member => ih e member e.1, ← List.map_flatMap, ← locatedAll_eq]
    refine List.map_congr_left fun f member => ?_
    obtain ⟨front, last, ends⟩ :=
      (List.eq_nil_or_concat f.1).resolve_left (ne_nil_of_mem_locatedAll member)
    simp [lastName, ends, List.getLast?_cons]

theorem filesOfAll_eq_map (canonical : (folder cs).IsCanonical) :
    filesOfAll cs = (locatedAll cs).map fun f => (lastName f.1, f.2) := by
  cases canonical with | folder _ _ inner =>
  rw [filesOfAll_eq, List.flatMap_congr fun e member => files_eq (inner e member) e.1,
    ← List.map_flatMap, ← locatedAll_eq]

theorem holds_of_mem_located (canonical : content.IsCanonical) (member : (name, content) ∈ cs)
    (h : (path, bytes) ∈ located name content) : cs.Holds path (.file bytes) := by
  induction canonical generalizing name cs path with
  | file =>
    rw [located, List.mem_singleton] at h
    obtain ⟨rfl, rfl⟩ := Prod.mk.inj h
    exact .file member
  | folder _ _ _ ih =>
    rw [located, List.mem_map] at h
    obtain ⟨⟨below, bytes'⟩, visited, same⟩ := h
    obtain ⟨rfl, rfl⟩ := Prod.mk.inj same
    rw [locatedAll_eq, List.mem_flatMap] at visited
    obtain ⟨e, listed, visited⟩ := visited
    exact .inside member (ih e listed listed visited)

theorem mem_locatedAll_of_holds {sight : Sight} (h : cs.Holds path sight) (file : sight = .file bytes) :
    (path, bytes) ∈ locatedAll cs := by
  induction h with
  | folder => contradiction
  | file member =>
    obtain rfl := Sight.file.inj file
    rw [locatedAll_eq, List.mem_flatMap]
    exact ⟨_, member, by simp [located]⟩
  | inside member _ ih =>
    rw [locatedAll_eq, List.mem_flatMap]
    refine ⟨_, member, ?_⟩
    rw [located, List.mem_map]
    exact ⟨_, ih file, rfl⟩

theorem mem_locatedAll_iff (canonical : (folder cs).IsCanonical) :
    (path, bytes) ∈ locatedAll cs ↔ cs.Holds path (.file bytes) := by
  refine ⟨fun visited => ?_, fun held => mem_locatedAll_of_holds held rfl⟩
  rw [locatedAll_eq, List.mem_flatMap] at visited
  obtain ⟨e, member, visited⟩ := visited
  cases canonical with | folder _ _ inner =>
  exact holds_of_mem_located (inner e member) member visited

theorem pathBefore_of_located {e e' : String × Content} {f f' : List String × Bytes}
    (less : e.1 < e'.1) (h : f ∈ located e.1 e.2) (h' : f' ∈ located e'.1 e'.2) :
    PathBefore f.1 f'.1 := by
  obtain ⟨rest, begins⟩ := head_of_mem_located h
  obtain ⟨rest', begins'⟩ := head_of_mem_located h'
  rw [begins, begins']
  exact .rel (Text.utf8_lt_of_lt less)

/-- What is visited in one folder stands in order if it does below each entry. -/
theorem pairwise_flatMap_located {entries : Contents}
    (sorted : entries.Pairwise fun a b => a.1 ≤ b.1) (distinct : (entries.map (·.1)).Nodup)
    (each : ∀ e ∈ entries, (located e.1 e.2).Pairwise fun a b => PathBefore a.1 b.1) :
    (locatedAll entries).Pairwise fun a b => PathBefore a.1 b.1 := by
  rw [locatedAll_eq, List.pairwise_flatMap]
  refine ⟨each, ?_⟩
  have differ : entries.Pairwise fun a b => a.1 ≠ b.1 := List.pairwise_map.1 distinct
  refine (sorted.and differ).imp fun order f visited f' visited' => ?_
  exact pathBefore_of_located (Std.lt_of_le_of_ne order.1 order.2) visited visited'

theorem pairwise_located (canonical : content.IsCanonical) (name : String) :
    (located name content).Pairwise fun a b => PathBefore a.1 b.1 := by
  induction canonical generalizing name with
  | file => exact List.pairwise_singleton _ _
  | folder sorted distinct _ ih =>
    rw [located, List.pairwise_map]
    have inner := pairwise_flatMap_located sorted distinct fun e member => ih e member e.1
    exact inner.imp fun before => .cons before

theorem pairwise_locatedAll (canonical : (folder cs).IsCanonical) :
    (locatedAll cs).Pairwise fun a b => PathBefore a.1 b.1 := by
  cases canonical with | folder sorted distinct inner =>
  exact pairwise_flatMap_located sorted distinct fun e member => pairwise_located (inner e member) e.1

end Content

theorem not_pathBefore_self (path : List String) : ¬ PathBefore path path := by
  induction path with
  | nil => exact fun h => by cases h
  | cons name rest ih =>
    intro h
    cases h with
    | rel less => exact List.lt_irrefl _ less
    | cons below => exact ih below

theorem exists_stem {cs : List Char} (dotted : (cs.reverse.takeWhile (· != '.')).length < cs.length) :
    ∃ stem, cs = stem ++ '.' :: (cs.reverse.takeWhile (· != '.')).reverse := by
  have whole := List.takeWhile_append_dropWhile (p := (· != '.')) (l := cs.reverse)
  have ends := @List.head?_dropWhile_not _ (· != '.') cs.reverse
  cases after : cs.reverse.dropWhile (· != '.') with
  | nil =>
    have sizes := congrArg List.length whole
    rw [after, List.append_nil, List.length_reverse] at sizes
    omega
  | cons c more =>
    rw [after] at ends whole
    obtain rfl : c = '.' := by simpa using ends
    have back := congrArg List.reverse whole
    exact ⟨more.reverse, by simpa using back.symm⟩

theorem extension?_eq_some_iff {name ext : String} : Path.extension? name = some ext ↔
    ∃ stem, stem ≠ [] ∧ name.toList = stem ++ '.' :: ext.toList ∧ '.' ∉ ext.toList := by
  have all := List.all_takeWhile (p := (· != '.')) (l := name.toList.reverse)
  have dotless : '.' ∉ name.toList.reverse.takeWhile (· != '.') := fun member => by
    simpa using List.all_eq_true.1 all _ member
  unfold Path.extension?
  constructor
  · intro h
    dsimp only at h
    split at h
    · next short =>
      obtain rfl := Option.some.inj h
      rw [← String.length_toList] at short
      obtain ⟨stem, letters⟩ := exists_stem (Nat.lt_of_succ_lt short)
      refine ⟨stem, ?_, by simpa using letters, by simpa using dotless⟩
      rintro rfl
      have sizes := congrArg List.length letters
      rw [List.nil_append, List.length_cons, List.length_reverse] at sizes
      omega
    · contradiction
  · rintro ⟨stem, nonempty, letters, plain⟩
    have taken : name.toList.reverse.takeWhile (· != '.') = ext.toList.reverse := by
      rw [letters, List.reverse_append, List.reverse_cons, List.append_assoc,
        List.takeWhile_append_of_pos]
      · simp
      · intro c member
        rw [List.mem_reverse] at member
        simpa using fun same : c = '.' => plain (same ▸ member)
    have size := congrArg List.length letters
    rw [List.length_append, List.length_cons, String.length_toList] at size
    have positive := List.length_pos_iff.2 nonempty
    simp only [taken, List.length_reverse, List.reverse_reverse, String.ofList_toList]
    rw [if_pos (by omega)]

theorem isDescriptor_iff {name : String} : isDescriptor name = true ↔ HasDescriptorExtension name := by
  have lower (e word : String) : (e.toLower == word) = true ↔ e.toList.map Char.toLower = word.toList := by
    have letters : e.toLower.toList = e.toList.map Char.toLower := String.toList_map
    rw [beq_iff_eq, ← String.toList_inj, letters]
  have known (e : String) : (e.toLower == "yaml" || e.toLower == "yml") = true ↔
      e.toList.map Char.toLower = "yaml".toList ∨ e.toList.map Char.toLower = "yml".toList := by
    rw [Bool.or_eq_true, lower, lower]
  rw [isDescriptor, Option.any_eq_true]
  simp only [known]
  constructor
  · rintro ⟨ext, found, fits⟩
    obtain ⟨stem, nonempty, letters, -⟩ := extension?_eq_some_iff.1 found
    exact ⟨stem, ext.toList, nonempty, letters, fits⟩
  · rintro ⟨stem, ext, nonempty, letters, fits⟩
    refine ⟨String.ofList ext, extension?_eq_some_iff.2 ⟨stem, nonempty, ?_, ?_⟩, by simpa using fits⟩
    · simpa using letters
    · rw [String.toList_ofList]
      intro dot
      have small := List.mem_map_of_mem (f := Char.toLower) dot
      rcases fits with fits | fits
      all_goals
        rw [fits] at small
        revert small
        decide

namespace Disk

variable {d : Disk} {base : String} {cs : Contents} {path : List String} {bytes : Bytes} {α : Type}

/-- The files that are read, each with its path. -/
def visited (cs : Contents) : List (List String × Bytes) :=
  (Content.locatedAll cs).filter fun f => isDescriptor (Content.lastName f.1)

theorem mem_visited_iff (sound : d.root.Sound) (read : d.contents? base = some cs) :
    (path, bytes) ∈ visited cs ↔ d.HasDescriptor base path bytes := by
  rw [visited, List.mem_filter, Content.mem_locatedAll_iff (contents?_isCanonical sound read),
    holds_iff_shows read, isDescriptor_iff, HasDescriptor, Content.lastName]
  refine and_congr_right fun shown => ?_
  rw [← holds_iff_shows read] at shown
  obtain ⟨front, last, rfl⟩ := (List.eq_nil_or_concat path).resolve_left shown.ne_nil
  simp

theorem documents_eq_visited (canonical : (Content.folder cs).IsCanonical) (reader : Reader α) :
    cs.documents reader = (visited cs).filterMap fun f => readDocument? reader f.2 := by
  rw [Contents.documents, Content.filesOfAll_eq_map canonical, List.filter_map, List.filterMap_map]
  rfl

/-- What is found first comes from the first entry of a sorted list that gives something fitting. -/
theorem exists_first_of_find? {β : Type} {R : β → β → Prop} {files : List β} {g : β → Option α}
    {test : α → Bool} {a : α} (sorted : files.Pairwise R)
    (found : (files.filterMap g).find? test = some a) :
    ∃ f ∈ files, g f = some a ∧
      ∀ f' ∈ files, ∀ b, g f' = some b → test b = true → f' = f ∨ R f f' := by
  induction files with
  | nil => contradiction
  | cons f rest ih =>
    obtain ⟨before, sorted⟩ := List.pairwise_cons.1 sorted
    have skip (later : (rest.filterMap g).find? test = some a)
        (unfit : ∀ b, g f = some b → test b = false) : ∃ x ∈ f :: rest, g x = some a ∧
          ∀ f' ∈ f :: rest, ∀ b, g f' = some b → test b = true → f' = x ∨ R x f' := by
      obtain ⟨x, member, held, least⟩ := ih sorted later
      refine ⟨x, List.mem_cons_of_mem _ member, held, List.forall_mem_cons.2 ⟨?_, least⟩⟩
      intro b own fits
      rw [unfit b own] at fits
      contradiction
    cases own : g f with
    | none =>
      rw [List.filterMap_cons_none own] at found
      exact skip found (by simp [own])
    | some b =>
      rw [List.filterMap_cons_some own, List.find?_cons] at found
      split at found
      · obtain rfl := Option.some.inj found
        refine ⟨f, List.mem_cons_self, own, List.forall_mem_cons.2 ⟨?_, ?_⟩⟩
        · exact fun _ _ _ => .inl rfl
        · exact fun f' member _ _ _ => .inr (before f' member)
      · next unfit =>
        refine skip found fun b' own' => ?_
        obtain rfl := Option.some.inj (own.symm.trans own')
        exact unfit

/-- Loading from a folder visits its descriptors, each once, in the order of their paths, whatever kind
of document is read and in whatever order folders list their entries. The documents come in this
order; the first of several that pass a test is the one at the first path. -/
theorem documents_in_path_order (sound : d.root.Sound) (folder : d.isFolder base = true) :
    ∃ files : List (List String × Bytes),
      (∀ path bytes, (path, bytes) ∈ files ↔ d.HasDescriptor base path bytes) ∧
      (files.Pairwise fun f f' => PathBefore f.1 f'.1) ∧ (files.map (·.1)).Nodup ∧
      ∀ (α : Type) (reader : Reader α), ∃ docs, d.documents reader base = .ok docs ∧
        docs = (files.filterMap fun f => readDocument? reader f.2) ∧
        ∀ test a, docs.find? test = some a → ∃ path bytes, d.HasDescriptor base path bytes ∧
          readDocument? reader bytes = some a ∧ ∀ path' bytes' b, d.HasDescriptor base path' bytes' →
            readDocument? reader bytes' = some b → test b = true → path' = path ∨ PathBefore path path' := by
  obtain ⟨cs, read⟩ := isFolder_iff_contents.1 folder
  have canonical := contents?_isCanonical sound read
  have mem (path : List String) (bytes : Bytes) :
      (path, bytes) ∈ visited cs ↔ d.HasDescriptor base path bytes := mem_visited_iff sound read
  have sorted : (visited cs).Pairwise fun f f' => PathBefore f.1 f'.1 :=
    (Content.pairwise_locatedAll canonical).sublist List.filter_sublist
  refine ⟨visited cs, mem, sorted, ?_, fun α reader => ⟨_, ?_, documents_eq_visited canonical reader, ?_⟩⟩
  · refine List.pairwise_map.2 (sorted.imp fun {f f'} before same => ?_)
    rw [same] at before
    exact not_pathBefore_self _ before
  · rw [documents_eq, leadsAstray, folder, Bool.not_true, Bool.and_false, read]
    rfl
  · intro test a found
    rw [documents_eq_visited canonical] at found
    obtain ⟨⟨path, bytes⟩, member, held, least⟩ := exists_first_of_find? sorted found
    refine ⟨path, bytes, (mem path bytes).1 member, held, fun path' bytes' b there read' fits => ?_⟩
    have first := least (path', bytes') ((mem path' bytes').2 there) b read' fits
    exact first.imp_left fun same => (Prod.mk.inj same).1

/-- A folder of descriptors and one that begins with its name, with what is not visited. -/
def mixedEntries : List (String × FileTree) :=
  [("a-b.yaml", .file [1]), (".c.yaml", .file []), ("a", .folder [("z.YML", .file []), ("z", .pipe)]),
    ("yaml", .file [])]

theorem contents?_mixed : (productDisk mixedEntries).contents? "product" =
    some [("a", .folder [("z.YML", .file [])]), ("a-b.yaml", .file [1]), ("yaml", .file [])] := by
  have shown : Content.isHidden "a-b.yaml" = false ∧ Content.isHidden ".c.yaml" = true ∧
      Content.isHidden "a" = false ∧ Content.isHidden "z.YML" = false ∧
      Content.isHidden "yaml" = false := by decide +kernel
  refine contents?_eq_some_iff.2 ⟨_, _, found?_productDisk mixedEntries, ?_⟩
  simp [mixedEntries, Content.ofEntries, Content.ofNode?, shown, Text.sortOn, List.mergeSort]

/-- The file in the folder is visited first, though a dash comes before a slash. -/
theorem documents_in_path_order_mixed :
    (productDisk mixedEntries).root.Sound ∧ (productDisk mixedEntries).isFolder "product" = true ∧
    ∃ files : List (List String × Bytes),
      (∀ path bytes, (path, bytes) ∈ files ↔
        (productDisk mixedEntries).HasDescriptor "product" path bytes) ∧
      (files.Pairwise fun f f' => PathBefore f.1 f'.1) ∧
      (["a", "z.YML"], []) ∈ files ∧ (["a-b.yaml"], [1]) ∈ files ∧
      PathBefore ["a", "z.YML"] ["a-b.yaml"] := by
  have name (name : String) (known : name ∈ ["a-b.yaml", ".c.yaml", "a", "yaml", "z.YML", "z"]) :
      IsFileName name := by
    simp only [List.mem_cons, List.not_mem_nil, or_false] at known
    rcases known with rfl | rfl | rfl | rfl | rfl | rfl
    all_goals exact ⟨by decide, by decide, by decide⟩
  have file (bytes : Bytes) (short : bytes.length < UInt64.size) : (FileTree.file bytes).Sound :=
    .file short
  have sound : (productDisk mixedEntries).root.Sound := by
    apply productDisk_sound
    have inner : (FileTree.folder [("z.YML", .file []), ("z", .pipe)]).Sound :=
      .folder (by decide) (by simp [name]) (by simp [FileTree.Sound.pipe, file, UInt64.size])
    exact .folder (by decide) (by simp [mixedEntries, name])
      (by simp [mixedEntries, inner, file, UInt64.size])
  have folder := isFolder_iff_contents.2 ⟨_, contents?_mixed⟩
  obtain ⟨files, mem, sorted, -⟩ := documents_in_path_order sound folder
  have visits (path : List String) (bytes : Bytes) :
      (path, bytes) ∈ files ↔ (path, bytes) ∈ visited _ :=
    (mem path bytes).trans (mem_visited_iff sound contents?_mixed).symm
  refine ⟨sound, folder, files, mem, sorted, ?_, ?_, .rel (by decide +kernel)⟩
  all_goals
    rw [visits]
    decide +kernel

end Disk
end ProductTemplates
