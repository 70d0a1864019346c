import ProductTemplates.Product.Loading
import ProductTemplates.Proofs.Except
import ProductTemplates.Proofs.Product.Content

/-! What the bytes of a product's content say about the descriptors that are loaded. They tell all
but what a path of a category leads to that is not content: a link to a folder or to a pipe, or a
pipe itself. -/
namespace ProductTemplates

open Document

def categories : List String :=
  ["instance-templates", "application-templates", "parameter-templates",
    "instance-variable-templates"]

def descriptors (contents : String → Contents) : RawTemplates where
  instanceTemplates := (contents "instance-templates").documents InstanceTemplate.read
  applicationTemplates := (contents "application-templates").documents ApplicationTemplate.read
  parameterTemplates := (contents "parameter-templates").documents ParameterTemplate.read
  variableTemplates := (contents "instance-variable-templates").documents VariableTemplate.read

namespace Disk

/-- The content of a folder of descriptors, which may be missing. -/
def categoryContents (d : Disk) (product category : String) : Contents :=
  (d.contents? (Path.join product category)).getD []

def leadsAstray (d : Disk) (path : String) : Bool := d.has path && !d.isFolder path

/-- The first category, in the order in which they are loaded, with something else in its place. -/
def firstBlocked? (d : Disk) (product : String) : Option String :=
  categories.find? fun category => d.leadsAstray (Path.join product category)

/-- Whether something else stands where a folder of descriptors is expected. -/
def Blocked (d : Disk) (product : String) : Prop :=
  ∃ category ∈ categories, d.has (Path.join product category) = true ∧
    d.isFolder (Path.join product category) = false

/-- Whether all that is found under a category is part of the product's content. -/
def Tracked (d : Disk) (product : String) (cs : Contents) : Prop :=
  ∀ category ∈ categories, d.has (Path.join product category) = true →
    ∃ content, cs.lookup category = some content

/-- What is found under a category that is not part of the product's content. -/
def strays (d : Disk) (product : String) (cs : Contents) (category : String) : Contents :=
  if (cs.lookup category).isSome then [] else d.categoryContents product category

variable {d : Disk} {product path category : String} {cs es : Contents} {content : Content}
  {bytes : Bytes} {α : Type} {reader : Reader α}

/-- What is in a folder is read as far as it can be; something else than a folder is an error. -/
theorem documents_eq (reader : Reader α) (path : String) :
    d.documents reader path =
      if d.leadsAstray path then .error (.folderUnreadable path)
      else .ok (((d.contents? path).getD []).documents reader) := by
  rw [documents, leadsAstray]
  cases there : d.has path with
  | false =>
    have free : d.contents? path = none := by
      apply contents?_eq_none
      simp_all [has, isFolder]
    rw [free]
    rfl
  | true =>
    cases inside : d.isFolder path with
    | false =>
      rw [contents?_eq_none inside]
      rfl
    | true =>
      obtain ⟨cs, read⟩ := isFolder_iff_contents.1 inside
      rw [read]
      rfl

/-- The folders of descriptors are loaded one after another, up to the first that is blocked. -/
theorem rawTemplates_of_folder (folder : d.isFolder product = true) :
    d.rawTemplates product =
      match d.firstBlocked? product with
      | some category => .error (.folderUnreadable (Path.join product category))
      | none => .ok (descriptors (d.categoryContents product)) := by
  rw [rawTemplates, folder, documents_eq, documents_eq, documents_eq, documents_eq, firstBlocked?,
    categories]
  simp only [List.find?_cons, List.find?_nil]
  cases d.leadsAstray (Path.join product "instance-templates") with
  | true => rfl
  | false =>
    cases d.leadsAstray (Path.join product "application-templates") with
    | true => rfl
    | false =>
      cases d.leadsAstray (Path.join product "parameter-templates") with
      | true => rfl
      | false => cases d.leadsAstray (Path.join product "instance-variable-templates") <;> rfl

theorem firstBlocked?_eq_none : d.firstBlocked? product = none ↔ ¬ d.Blocked product := by
  simp only [firstBlocked?, List.find?_eq_none, leadsAstray, Blocked, Bool.and_eq_true,
    Bool.not_eq_true', not_exists, not_and]

theorem rawTemplates_of_open (folder : d.isFolder product = true) (free : ¬ d.Blocked product) :
    d.rawTemplates product = .ok (descriptors (d.categoryContents product)) := by
  rw [rawTemplates_of_folder folder, firstBlocked?_eq_none.2 free]

theorem isFolder_of_rawTemplates {templates : RawTemplates}
    (h : d.rawTemplates product = .ok templates) : d.isFolder product = true := by
  rw [← Bool.not_eq_false]
  intro other
  rw [rawTemplates, other] at h
  contradiction

theorem not_blocked_of_rawTemplates {templates : RawTemplates}
    (h : d.rawTemplates product = .ok templates) : ¬ d.Blocked product := by
  rw [rawTemplates_of_folder (isFolder_of_rawTemplates h)] at h
  rw [← firstBlocked?_eq_none]
  cases first : d.firstBlocked? product with
  | none => rfl
  | some category => simp [first] at h

theorem toOption_of_blocked (blocked : d.Blocked product) :
    (d.rawTemplates product).toOption = none := by
  cases loaded : d.rawTemplates product with
  | error e => rfl
  | ok templates => exact absurd blocked (not_blocked_of_rawTemplates loaded)

theorem toOption_of_open (read : d.contents? product = some cs) (free : ¬ d.Blocked product) :
    (d.rawTemplates product).toOption = some (descriptors (d.categoryContents product)) := by
  rw [rawTemplates_of_open (isFolder_iff_contents.2 ⟨cs, read⟩) free]
  rfl

theorem category_isEntry (known : category ∈ categories) :
    IsFileName category ∧ IsEntryStep category := by
  simp only [categories, List.mem_cons, List.not_mem_nil, or_false] at known
  rcases known with rfl | rfl | rfl | rfl
  all_goals exact ⟨⟨by decide, by decide, by decide⟩, ⟨by decide, by decide, by decide⟩⟩

theorem category_not_hidden (known : category ∈ categories) : Content.isHidden category = false := by
  simp only [categories, List.mem_cons, List.not_mem_nil, or_false] at known
  rcases known with rfl | rfl | rfl | rfl
  all_goals
    rw [Content.isHidden, String.startsWith_string_eq_false_iff]
    decide

theorem found?_category (sound : d.root.Sound) (read : d.contents? product = some cs)
    (known : category ∈ categories) (counts : cs.lookup category = some content) :
    (∀ es, content = .folder es → d.contents? (Path.join product category) = some es) ∧
    ∀ bytes, content = .file bytes →
      ∃ names, d.found? (Path.join product category) = some (names, .file bytes) := by
  obtain ⟨names, entries, found, -⟩ := contents?_eq_some_iff.1 read
  obtain ⟨clean, plain⟩ := category_isEntry known
  obtain ⟨node, entry, same⟩ := (lookup_contents sound found read).1 counts
  rw [Content.ofNode?.eq_def, category_not_hidden known] at same
  cases node with
  | folder inner =>
    have there := found?_join_entry found clean plain entry (by simp)
    obtain rfl := Option.some.inj same
    refine ⟨fun es folder => ?_, by simp⟩
    obtain rfl := Content.folder.inj folder
    exact contents?_eq_some_iff.2 ⟨_, _, there, rfl⟩
  | file bytes =>
    have there := found?_join_entry found clean plain entry (by simp)
    obtain rfl := Option.some.inj same
    refine ⟨by simp, fun bytes' file => ?_⟩
    obtain rfl := Content.file.inj file
    exact ⟨_, there⟩
  | link target =>
    obtain ⟨bytes, linked, rfl⟩ := Option.map_eq_some_iff.1 same
    refine ⟨by simp, fun bytes' file => ?_⟩
    obtain rfl := Content.file.inj file
    exact read?_eq_some_iff.1 linked
  | pipe => contradiction

theorem blocked_of_file (sound : d.root.Sound) (read : d.contents? product = some cs)
    (known : category ∈ categories) (counts : cs.lookup category = some (.file bytes)) :
    d.Blocked product := by
  obtain ⟨names, found⟩ := (found?_category sound read known counts).2 bytes rfl
  exact ⟨category, known, by simp [has, found], by simp [isFolder, found, FileTree.isFolder]⟩

theorem categoryContents_of_folder (sound : d.root.Sound) (read : d.contents? product = some cs)
    (known : category ∈ categories) (counts : cs.lookup category = some (.folder es)) :
    d.categoryContents product category = es := by
  rw [categoryContents, (found?_category sound read known counts).1 es rfl]
  rfl

/-- Everything is tracked but for pipes, and links to what is not a file, in a category's place. -/
theorem tracked_iff (sound : d.root.Sound) (read : d.contents? product = some cs)
    {names : List String} {entries : List (String × FileTree)}
    (found : d.found? product = some (names, .folder entries)) :
    d.Tracked product cs ↔ ∀ category ∈ categories,
      entries.lookup category ≠ some .pipe ∧
      ∀ target, entries.lookup category = some (.link target) →
        d.has (Path.join product category) = true →
          ∃ bytes, d.read? (Path.join product category) = some bytes := by
  refine forall₂_congr fun category known => ?_
  obtain ⟨clean, plain⟩ := category_isEntry known
  have shown := category_not_hidden known
  have counts : (∃ content, cs.lookup category = some content) ↔
      ∃ node, entries.lookup category = some node ∧
        (Content.ofNode? d product category node).isSome = true := by
    simp only [lookup_contents sound found read, Option.isSome_iff_exists]
    exact exists_comm.trans (exists_congr fun node => exists_and_left)
  rw [counts]
  cases entry : entries.lookup category with
  | none => simp [has, found?_join_free found clean plain entry]
  | some node =>
    cases node with
    | folder | file => simp [Content.ofNode?, shown]
    | link => simp [Content.ofNode?, shown, ← Option.isSome_iff_exists]
    | pipe => simp [Content.ofNode?, has, found?_join_entry found clean plain entry (by simp)]

/-- Only a file of the content can stand in the way of what is tracked. -/
theorem Tracked.blocked_iff (tracked : d.Tracked product cs) (sound : d.root.Sound)
    (read : d.contents? product = some cs) :
    d.Blocked product ↔ ∃ category ∈ categories, ∃ bytes, cs.lookup category = some (.file bytes) := by
  constructor
  · rintro ⟨category, known, there, other⟩
    obtain ⟨content, counts⟩ := tracked category known there
    refine ⟨category, known, ?_⟩
    cases content with
    | file bytes => exact ⟨bytes, counts⟩
    | folder es =>
      rw [isFolder_iff_contents.2 ⟨es, (found?_category sound read known counts).1 es rfl⟩] at other
      contradiction
  · rintro ⟨category, known, bytes, counts⟩
    exact blocked_of_file sound read known counts

theorem Tracked.strays_eq (tracked : d.Tracked product cs) (known : category ∈ categories) :
    d.strays product cs category = [] := by
  rw [strays]
  split
  · rfl
  · next untold =>
    have free : d.isFolder (Path.join product category) = false := by
      rw [← Bool.not_eq_true, isFolder_iff]
      rintro ⟨names, entries, found⟩
      obtain ⟨content, counts⟩ := tracked category known (by simp [has, found])
      exact untold (by simp [counts])
    rw [categoryContents, contents?_eq_none free]
    rfl

theorem descriptors_congr {f g : String → Contents}
    (same : ∀ category ∈ categories, f category = g category) : descriptors f = descriptors g := by
  simp only [descriptors, same _ (show "instance-templates" ∈ categories by simp [categories]),
    same _ (show "application-templates" ∈ categories by simp [categories]),
    same _ (show "parameter-templates" ∈ categories by simp [categories]),
    same _ (show "instance-variable-templates" ∈ categories by simp [categories])]

theorem rawTemplates_of_instances {names : List String} {inside : List (String × FileTree)}
    (found : d.found? product = some (names, .folder [("instance-templates", .folder inside)])) :
    d.rawTemplates product = .ok { instanceTemplates :=
      (d.categoryContents product "instance-templates").documents InstanceTemplate.read } := by
  have missing {category : String} (known : category ∈ categories)
      (other : category ≠ "instance-templates") : d.found? (Path.join product category) = none := by
    obtain ⟨clean, plain⟩ := category_isEntry known
    exact found?_join_free found clean plain (by simp [other])
  have nothing (category : String) (known : category ∈ categories)
      (other : category ≠ "instance-templates") : d.categoryContents product category = [] := by
    rw [categoryContents, contents?, missing known other]
    rfl
  have free : ¬ d.Blocked product := by
    rintro ⟨category, known, has, other⟩
    by_cases same : category = "instance-templates"
    · obtain ⟨clean, plain⟩ := category_isEntry known
      subst same
      have there := found?_join_entry found clean plain rfl (by simp)
      rw [isFolder, there] at other
      contradiction
    · rw [Disk.has, missing known same] at has
      contradiction
  rw [rawTemplates_of_open (isFolder_iff.2 ⟨_, _, found⟩) free, descriptors,
    nothing "application-templates" (by simp [categories]) (by decide),
    nothing "parameter-templates" (by simp [categories]) (by decide),
    nothing "instance-variable-templates" (by simp [categories]) (by decide)]
  rfl

theorem documents_file {x : α} (name : String) (yaml : isDescriptor name = true)
    (parsed : readDocument? reader bytes = some x) :
    Contents.documents reader [(name, .file bytes)] = [x] := by
  simp [Contents.documents, Content.filesOfAll, Content.files, yaml, parsed]

/-- A product with one file, that of an instance template. -/
theorem rawTemplates_of_instance {names : List String} {name : String} {t : InstanceTemplate}
    (found : d.found? product =
      some (names, .folder [("instance-templates", .folder [(name, .file bytes)])]))
    (shown : Content.isHidden name = false) (yaml : isDescriptor name = true)
    (parsed : readDocument? InstanceTemplate.read bytes = some t) :
    d.rawTemplates product = .ok { instanceTemplates := [t] } := by
  obtain ⟨clean, plain⟩ :=
    category_isEntry (show "instance-templates" ∈ categories by simp [categories])
  have there := found?_join_entry found clean plain rfl (by simp)
  have contents : d.categoryContents product "instance-templates" = [(name, .file bytes)] := by
    rw [categoryContents, contents?, there]
    simp [Content.ofEntries, Content.ofNode?, shown, Text.sortOn]
  rw [rawTemplates_of_instances found, contents, documents_file name yaml parsed]

/-- A disk with nothing but a product. -/
def productDisk (entries : List (String × FileTree)) : Disk :=
  { root := .folder [("product", .folder entries)] }

theorem found?_productDisk (entries : List (String × FileTree)) :
    (productDisk entries).found? "product" = some (["product"], .folder entries) :=
  found?_name ⟨by decide, by decide⟩ ⟨by decide, by decide, by decide⟩ rfl rfl (by simp)

theorem productDisk_sound {entries : List (String × FileTree)}
    (sound : (FileTree.folder entries).Sound) : (productDisk entries).root.Sound := by
  have name : IsFileName "product" := ⟨by decide, by decide, by decide⟩
  refine .folder (by simp) ?_ ?_
  · rw [List.forall_mem_singleton]
    exact name
  · rw [List.forall_mem_singleton]
    exact sound

section Agreement

variable {d₁ d₂ : Disk} {p₁ p₂ : String} {cs₁ cs₂ : Contents}

/-- Under a category, products of the same content differ in what their content does not tell. -/
theorem documents_eq_iff (sound₁ : d₁.root.Sound) (sound₂ : d₂.root.Sound)
    (read₁ : d₁.contents? p₁ = some cs) (read₂ : d₂.contents? p₂ = some cs)
    (free : ¬ d₁.Blocked p₁) (reader : Reader α) (known : category ∈ categories) :
    (d₁.categoryContents p₁ category).documents reader =
        (d₂.categoryContents p₂ category).documents reader ↔
      (d₁.strays p₁ cs category).documents reader =
        (d₂.strays p₂ cs category).documents reader := by
  cases counts : cs.lookup category with
  | none => simp [strays, counts]
  | some content =>
    cases content with
    | file bytes => exact absurd (blocked_of_file sound₁ read₁ known counts) free
    | folder es =>
      rw [categoryContents_of_folder sound₁ read₁ known counts,
        categoryContents_of_folder sound₂ read₂ known counts]
      simp [strays, counts]

theorem descriptors_eq_iff (sound₁ : d₁.root.Sound) (sound₂ : d₂.root.Sound)
    (read₁ : d₁.contents? p₁ = some cs) (read₂ : d₂.contents? p₂ = some cs)
    (free : ¬ d₁.Blocked p₁) :
    descriptors (d₁.categoryContents p₁) = descriptors (d₂.categoryContents p₂) ↔
      descriptors (d₁.strays p₁ cs) = descriptors (d₂.strays p₂ cs) := by
  simp only [descriptors, RawTemplates.mk.injEq]
  refine and_congr ?_ (and_congr ?_ (and_congr ?_ ?_))
  all_goals exact documents_eq_iff sound₁ sound₂ read₁ read₂ free _ (by simp [categories])

theorem rawTemplates_eq_iff (sound₁ : d₁.root.Sound) (sound₂ : d₂.root.Sound)
    (read₁ : d₁.contents? p₁ = some cs) (read₂ : d₂.contents? p₂ = some cs) :
    (d₁.rawTemplates p₁).toOption = (d₂.rawTemplates p₂).toOption ↔
      (d₁.Blocked p₁ ∧ d₂.Blocked p₂) ∨ (¬ d₁.Blocked p₁ ∧ ¬ d₂.Blocked p₂ ∧
        descriptors (d₁.strays p₁ cs) = descriptors (d₂.strays p₂ cs)) := by
  by_cases blocked₁ : d₁.Blocked p₁ <;> by_cases blocked₂ : d₂.Blocked p₂
  · simp only [toOption_of_blocked blocked₁, toOption_of_blocked blocked₂, blocked₁, blocked₂,
      and_self, true_or]
  · rw [toOption_of_blocked blocked₁, toOption_of_open read₂ blocked₂]
    simp [blocked₁, blocked₂]
  · rw [toOption_of_open read₁ blocked₁, toOption_of_blocked blocked₂]
    simp [blocked₁, blocked₂]
  · rw [toOption_of_open read₁ blocked₁, toOption_of_open read₂ blocked₂, Option.some_inj,
      descriptors_eq_iff sound₁ sound₂ read₁ read₂ blocked₁]
    simp [blocked₁, blocked₂]

/-- Where the contents of two products have the same bytes, the same descriptors are loaded or
neither can be loaded, exactly when both are blocked, or neither is and what their contents do not
tell of the categories holds the same descriptors. So it is where all that is found under the
categories is content. -/
theorem rawTemplates_eq_iff_of_bytes_eq (sound₁ : d₁.root.Sound) (sound₂ : d₂.root.Sound)
    (read₁ : d₁.contents? p₁ = some cs₁) (read₂ : d₂.contents? p₂ = some cs₂)
    (same : cs₁.bytes = cs₂.bytes) :
    ((d₁.rawTemplates p₁).toOption = (d₂.rawTemplates p₂).toOption ↔
      (d₁.Blocked p₁ ∧ d₂.Blocked p₂) ∨ (¬ d₁.Blocked p₁ ∧ ¬ d₂.Blocked p₂ ∧
        descriptors (d₁.strays p₁ cs₁) = descriptors (d₂.strays p₂ cs₂))) ∧
    (d₁.Tracked p₁ cs₁ → d₂.Tracked p₂ cs₂ →
      (d₁.rawTemplates p₁).toOption = (d₂.rawTemplates p₂).toOption) := by
  obtain rfl := Contents.bytes_inj (contents?_sound sound₁ read₁).1
    (contents?_sound sound₂ read₂).1 same
  have agree := rawTemplates_eq_iff sound₁ sound₂ read₁ read₂
  -- what is tracked has no strays, and whether it is blocked can be read off the content
  refine ⟨agree, fun tracked₁ tracked₂ => agree.2 ?_⟩
  rw [tracked₁.blocked_iff sound₁ read₁, tracked₂.blocked_iff sound₂ read₂]
  by_cases file : ∃ category ∈ categories, ∃ bytes, cs₁.lookup category = some (.file bytes)
  · exact .inl ⟨file, file⟩
  · refine .inr ⟨file, file, descriptors_congr fun category known => ?_⟩
    rw [tracked₁.strays_eq known, tracked₂.strays_eq known]

end Agreement

/-- A pipe in a category's place is no content, yet it keeps the product from being loaded. -/
theorem rawTemplates_ne_of_pipe :
    (productDisk []).contents? "product" = some [] ∧
    (productDisk [("instance-templates", .pipe)]).contents? "product" = some [] ∧
    ((productDisk []).rawTemplates "product").toOption ≠
      ((productDisk [("instance-templates", .pipe)]).rawTemplates "product").toOption := by
  have empty := found?_productDisk []
  have piped := found?_productDisk [("instance-templates", .pipe)]
  have sound₁ : (productDisk []).root.Sound := by
    apply productDisk_sound
    exact .folder (by simp) (by simp) (by simp)
  have sound₂ : (productDisk [("instance-templates", .pipe)]).root.Sound := by
    apply productDisk_sound
    refine .folder (by simp) ?_ ?_
    · rw [List.forall_mem_singleton]
      exact (category_isEntry (by simp [categories])).1
    · rw [List.forall_mem_singleton]
      exact .pipe
  have read₁ : (productDisk []).contents? "product" = some [] :=
    contents?_eq_some_iff.2 ⟨_, _, empty, by simp [Content.ofEntries, Text.sortOn]⟩
  have read₂ : (productDisk [("instance-templates", .pipe)]).contents? "product" = some [] :=
    contents?_eq_some_iff.2 ⟨_, _, piped, by simp [Content.ofEntries, Content.ofNode?, Text.sortOn]⟩
  have blocked : (productDisk [("instance-templates", .pipe)]).Blocked "product" := by
    have known : "instance-templates" ∈ categories := by simp [categories]
    obtain ⟨clean, plain⟩ := category_isEntry known
    have there := found?_join_entry piped clean plain rfl (by simp)
    exact ⟨_, known, by rw [has, there]; rfl, by rw [isFolder, there]; rfl⟩
  have free : ¬ (productDisk []).Blocked "product" := by
    rintro ⟨category, known, there, -⟩
    obtain ⟨clean, plain⟩ := category_isEntry known
    rw [has, found?_join_free empty clean plain rfl] at there
    contradiction
  refine ⟨read₁, read₂, fun agree => ?_⟩
  rcases (rawTemplates_eq_iff_of_bytes_eq sound₁ sound₂ read₁ read₂ rfl).1.1 agree with both | neither
  · exact free both.1
  · exact neither.2.1 blocked

end Disk
end ProductTemplates
