import ProductTemplates.Proofs.FileTree.Moving
import ProductTemplates.Proofs.Product.Caching

/-! Storing a bundle and reading it again. The record is kept as JSON, which has no form for tags, for
keys that are no texts and for some numbers: what carries such a value along is stored without a word
and read back as something else. -/
namespace ProductTemplates

open Document

variable {c : FileCache} {stamp : Stamp} {key product : String} {d d' loaded : Disk}
  {bundle bundle' : Bundle} {raw : RawTemplates} {maxDepth : Nat} {bytes : Bytes}

namespace FileCache

/-- Whether nothing has the name yet under which a record is written before it is moved. -/
def IsFresh (c : FileCache) (stamp : Stamp) (key : String) (d : Disk) : Prop :=
  ∀ names node, (d.makeFolders c.dir).2.ownPlace?
    (Path.join c.dir (key ++ "." ++ stamp.suffix ++ ".tmp")) ≠ some (.found names node)

/-- What is read after a store that went well are the bytes of the record. -/
theorem toBytes?_of_store (fresh : c.IsFresh stamp key d)
    (stored : c.store stamp key bundle d = (.ok (), d'))
    (read : d'.read? (c.entryPath key) = some bytes) :
    (CacheRecord.mk CacheRecord.currentFormat key stamp.time bundle).toBytes? = some bytes := by
  rcases store_cases stored with ⟨_, _, error, -⟩ | ⟨d₁, d₂, bytes', makes, written, wrote, ended⟩
  · cases error
  · rcases ended with ⟨-, moved⟩ | ⟨_, error, -⟩
    · unfold IsFresh at fresh
      rw [makes] at fresh
      obtain ⟨folder, name, es, there, free, rfl, here⟩ := Disk.ownPlace?_of_write? fresh wrote
      have inside := @FileTree.get?_alter _ _ name _ (fun _ => some (.file bytes')) there
      have taken : (FileTree.alterEntry name (fun _ => none)
          (FileTree.alterEntry name (fun _ => some (.file bytes')) es)).lookup name = none := by
        rw [FileTree.alterEntry_back free, free]
      rw [written, Disk.read?_of_move? here inside taken moved read]
    · cases error

theorem Opened.isFresh {spot : List String} {es : List (String × FileTree)} (opened : Opened c d spot es)
    (plain : '/' ∉ key.toList) (suffix : '/' ∉ stamp.suffix.toList)
    (short : Disk.isName (key ++ "." ++ stamp.suffix ++ ".tmp") = true)
    (free : es.lookup (key ++ "." ++ stamp.suffix ++ ".tmp") = none) : c.IsFresh stamp key d := by
  have proper := isEntryName_beside plain suffix
  have vacant := (opened.places_of_free proper.toIsSegment (proper.isEntryStep short) free).2
  intro names node taken
  rw [Disk.makeFolders, Disk.makeEach_of_folders opened.made, vacant] at taken
  cases taken

/-- A bundle that was stored is read back, if anything is, exactly if JSON has a form for all that it
carries along. -/
theorem bundle_eq_iff (parted : ∀ t ∈ bundle.parameterTemplates, t.IsParted)
    (fresh : c.IsFresh stamp key d) (stored : c.store stamp key bundle d = (.ok (), d'))
    (read : c.read? d' key = some bundle') :
    bundle' = bundle ↔ bundle.Carries Value.IsSimple := by
  obtain ⟨bytes, there, found⟩ := Option.bind_eq_some_iff.1 read
  obtain ⟨r, record, right⟩ := Option.bind_eq_some_iff.1 found
  split at right
  · obtain rfl := Option.some.inj right
    have written := toBytes?_of_store fresh stored there
    have fits : CacheRecord.currentFormat < 2 ^ 32 := by decide
    exact CacheRecord.bundle_eq_iff fits parted written record
  · contradiction

end FileCache

namespace Product

theorem read?_of_load {p : Product} (h : (load (some c) maxDepth stamp product d).1 = .ok p)
    (found : p.found = true) : ∃ key, d.contentKey product maxDepth = .ok key ∧
      c.read? d key = some p.bundle := by
  unfold load at h
  split at h
  · cases h
  · split at h
    · cases h
    · next key known =>
      split at h
      · next bundle hit =>
        obtain rfl := Except.ok.inj h
        exact ⟨key, known, hit⟩
      · split at h
        · cases h
        · obtain rfl := Except.ok.inj h
          contradiction

theorem store_of_load {p : Product} (h : load (some c) maxDepth stamp product d = (.ok p, d'))
    (fresh : p.found = false) (stored : p.stored = true) : ∃ raw, d.rawTemplates product = .ok raw ∧
      p.bundle = Bundle.ofRaw raw maxDepth ∧ c.store stamp p.key p.bundle d = (.ok (), d') := by
  unfold load at h
  split at h
  · cases h
  · split at h
    · cases h
    · next key known =>
      split at h
      · obtain ⟨same, -⟩ := Prod.mk.inj h
        obtain rfl := Except.ok.inj same
        contradiction
      · split at h
        · cases h
        · next raw descriptors =>
          rcases stores : c.store stamp key (Bundle.ofRaw raw maxDepth) d with ⟨outcome, after⟩
          simp only [stores] at h
          obtain ⟨same, rfl⟩ := Prod.mk.inj h
          obtain rfl := Except.ok.inj same
          cases outcome with
          | ok => exact ⟨raw, descriptors, rfl, stores⟩
          | error => contradiction

/-- A load that finds what the load before it stored resolves to the same just as well. -/
theorem load_again_eq_iff {stamp' : Stamp} {p p' : Product}
    (first : load (some c) maxDepth stamp product d = (.ok p, d'))
    (fresh : c.IsFresh stamp p.key d) (resolved : p.found = false) (stored : p.stored = true)
    (same : d'.contentKey product maxDepth = .ok p.key)
    (again : (load (some c) maxDepth stamp' product d').1 = .ok p') (found : p'.found = true) :
    p'.bundle = p.bundle ↔ p.bundle.Carries Value.IsSimple := by
  obtain ⟨raw, descriptors, whole, stores⟩ := store_of_load first resolved stored
  obtain ⟨key, known, hit⟩ := read?_of_load again found
  obtain rfl := Except.ok.inj (same.symm.trans known)
  refine FileCache.bundle_eq_iff ?_ fresh stores hit
  rw [whole]
  exact (carries_of_rawTemplates descriptors).2

/-- What a product resolves to is read back from a cache as it was stored, if anything is read, exactly
if it carries no tags, no keys but texts, and no numbers that are read otherwise than they are written. -/
theorem read?_store_eq_iff (descriptors : loaded.rawTemplates product = .ok raw)
    (fresh : c.IsFresh stamp key d)
    (stored : c.store stamp key (Bundle.ofRaw raw maxDepth) d = (.ok (), d'))
    (read : c.read? d' key = some bundle) :
    bundle = Bundle.ofRaw raw maxDepth ↔ (Bundle.ofRaw raw maxDepth).Carries Value.IsSimple :=
  FileCache.bundle_eq_iff (carries_of_rawTemplates descriptors).2 fresh stored read

end Product

/-- A port that is named by a number, and by a text as it is read back. -/
def numberedPorts : Value := .mapping [(.number (.integer 80), .string "http")]

def namedPorts : Value := .record [("80", .string "http")]

theorem namedPorts_isSimple : namedPorts.IsSimple := .record (by simp) (by simpa using .string "http")

theorem not_numberedPorts_isSimple : ¬ numberedPorts.IsSimple := by
  intro simple
  have back : numberedPorts.node.value? = some namedPorts := rfl
  have same := back.symm.trans (Value.value?_node_iff.2 simple)
  simp [namedPorts, numberedPorts, Value.record] at same

def shopText : String :=
  "{name: Shop, groups: [{name: web, applications: [{application: app, processControl: {ports: {80: http}}}]}]}"

/-- The shop with numbered ports, in a file of its own. -/
def shopDisk : Disk :=
  Disk.productDisk [("instance-templates", .folder [("shop.yaml", .file shopText.toUTF8.toList)])]

def shopTemplates : RawTemplates where
  instanceTemplates := [shop numberedPorts]

theorem rawTemplates_shop : shopDisk.rawTemplates "product" = .ok shopTemplates := by
  have parsed : readDocument? InstanceTemplate.read shopText.toUTF8.toList =
      some (shop numberedPorts) := by
    have written : Yaml.plainEvents? shopText =
        some (shopEvents [.openMapping (.written none), wordEvent "80", wordEvent "http", .close]) := by
      decide +kernel
    exact readDocument?_of_events written rfl
  exact Disk.rawTemplates_of_instance (Disk.found?_productDisk _) (by decide +kernel)
    (by decide +kernel) parsed

def shopRecord : CacheRecord where
  format := CacheRecord.currentFormat
  key := "shop"
  createdAt := "2024-05-06T07:08:09Z"
  bundle := { instanceTemplates := [shop numberedPorts] }

theorem ofBytes?_shop (written : shopRecord.toBytes? = some bytes) : CacheRecord.ofBytes? bytes =
    some { shopRecord with bundle := { instanceTemplates := [shop namedPorts] } } := by
  have shallow : shopRecord.toValue.node.within Json.maxNesting = shopRecord.toValue.node := by
    have format : (Value.number (.integer shopRecord.format)).node = .ofAtom (.number (.integer 1)) := by
      rw [Value.node, Json.numberAtom?_integer (by decide) (by decide)]
      rfl
    rw [CacheRecord.toValue, Value.node_record, List.map_cons, Value.fieldNode, format]
    rfl
  have read := (Bundle.read_eq_ok_iff (by simp)).2 (shopBundle_carries_iff.2 namedPorts_isSimple)
  have fits : shopRecord.format < 2 ^ 32 := by decide
  rw [CacheRecord.ofBytes?_eq written, shallow, toOption_eq_some_iff, CacheRecord.read_eq_ok_iff fits]
  exact ⟨by decide +kernel, _, read, rfl⟩

/-- The entries of a product with a folder for instance templates, in which there are none yet. -/
def siteEntries : List (String × FileTree) := [("instance-templates", .folder [])]

/-- The product beside an empty folder for a cache. -/
def site : Moment where
  disk := ⟨.folder [("product", .folder siteEntries), ("cache", .folder [])], []⟩
  product := "product"
  maxDepth := 64

theorem site_opened : FileCache.Opened siteCache site.disk ["cache"] [] := siteCache_opened _ _

/-- A port named by a number is stored, and read back named by a text. -/
theorem Product.read?_store_shop : ∃ d' bundle,
    shopDisk.rawTemplates "product" = .ok shopTemplates ∧
    siteCache.IsFresh ⟨"2024-05-06T07:08:09Z", "1"⟩ "shop" site.disk ∧
    siteCache.store ⟨"2024-05-06T07:08:09Z", "1"⟩ "shop" (Bundle.ofRaw shopTemplates 64) site.disk =
      (.ok (), d') ∧
    siteCache.read? d' "shop" = some bundle ∧ bundle ≠ Bundle.ofRaw shopTemplates 64 := by
  have resolved : Bundle.ofRaw shopTemplates 64 = shopRecord.bundle := ofRaw_shop numberedPorts
  obtain ⟨bytes, written⟩ := Option.isSome_iff_exists.1
    (show shopRecord.toBytes?.isSome = true by decide +kernel)
  have plain : '/' ∉ "shop".toList := by decide
  have suffix : '/' ∉ "1".toList := by decide
  have short : Disk.isName "shop.1.tmp" = true := by decide +kernel
  have fresh : siteCache.IsFresh ⟨"2024-05-06T07:08:09Z", "1"⟩ "shop" site.disk :=
    site_opened.isFresh plain suffix short rfl
  obtain ⟨d', stored, there, -⟩ := @FileCache.Opened.store_new _ _ _ _ _ _ ⟨"2024-05-06T07:08:09Z", "1"⟩
    shopRecord.bundle site_opened plain suffix (by decide +kernel) short rfl rfl written
  have hit : siteCache.read? d' "shop" = some { instanceTemplates := [shop namedPorts] } := by
    rw [FileCache.read?, there, Option.bind_eq_bind, Option.bind_some, ofBytes?_shop written]
    rfl
  rw [← resolved] at stored
  refine ⟨d', _, rawTemplates_shop, fresh, stored, hit, fun same => ?_⟩
  have simple := (read?_store_eq_iff rawTemplates_shop fresh stored hit).1 same
  rw [resolved] at simple
  exact not_numberedPorts_isSimple (shopBundle_carries_iff.1 simple)

end ProductTemplates
