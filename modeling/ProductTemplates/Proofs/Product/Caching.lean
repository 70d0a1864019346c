import ProductTemplates.Product
import ProductTemplates.Proofs.Bundle.Carrying
import ProductTemplates.Proofs.Cache.Folder
import ProductTemplates.Proofs.Cache.Record
import ProductTemplates.Proofs.Descriptor.Loading
import ProductTemplates.Proofs.Product.Tracking
import ProductTemplates.Proofs.Yaml.Written

/-! Loading with a cache and without it. Over any run of loads and edits, the folder of the cache holds
records of what was loaded; a record that is found under a key tells what the product under that key
resolves to, so that nobody can tell whether there is a cache. -/
namespace ProductTemplates

open Document FileCache

structure Moment where
  disk : Disk
  product : String
  maxDepth : Nat

namespace Moment

variable {m old : Moment} {cs cs' : Contents} {raw : RawTemplates} {key : String} {bytes : Bytes}

/-- Whether a product is one that a cache is made for: under each category there is a folder or
nothing, and the values that are carried along are plain. -/
structure IsOrdinary (m : Moment) : Prop where
  sound : m.disk.root.Sound
  fits : m.maxDepth < UInt64.size
  categories : ∀ names entries, m.disk.found? m.product = some (names, .folder entries) →
    ∀ category ∈ categories, ∀ node, entries.lookup category = some node → node.isFolder = true
  plain : ∀ raw, m.disk.rawTemplates m.product = .ok raw → raw.Carries Value.IsPlain

/-- Whether a load hashes some bytes: those of the content, or those of its key. -/
def Hashes (m : Moment) (bytes : Bytes) : Prop :=
  ∃ cs, m.disk.contents? m.product = some cs ∧
    (bytes = cs.bytes ∨ bytes = keyBytes (Digest.blake3 cs.bytes) m.maxDepth)

/-- Whether BLAKE3 tells apart all that two loads hash. -/
def NoCollision (m old : Moment) : Prop :=
  ∀ bytes bytes', m.Hashes bytes → old.Hashes bytes' →
    Digest.blake3 bytes = Digest.blake3 bytes' → bytes = bytes'

def Records (m : Moment) (bytes : Bytes) : Prop :=
  ∃ key time raw, m.disk.contentKey m.product m.maxDepth = .ok key ∧
    m.disk.rawTemplates m.product = .ok raw ∧
    (CacheRecord.mk CacheRecord.currentFormat key time (Bundle.ofRaw raw m.maxDepth)).toBytes? =
      some bytes

end Moment

/-- Entries of a cache that are never read: folders, and files under other names than those of
records. -/
def IsIdle (e : String × FileTree) : Prop :=
  e.2.isFolder = true ∨ (∃ bytes, e.2 = .file bytes) ∧ ∀ key, e.1 ≠ key ++ ".json"

/-- Loads with a cache or without it, and edits between them that bring no records into its
folder, which begins without any. A store that is cut short is an edit: what it leaves behind has
the name of no record. -/
inductive Run (c : FileCache) : List Moment → Disk → Prop where
  | start {d : Disk} : (∀ e ∈ c.entries d, IsIdle e) → Run c [] d
  | edit {past : List Moment} {d d' : Disk} : Run c past d →
      (∀ e ∈ c.entries d', IsIdle e ∨ e ∈ c.entries d) → Run c past d'
  | load {past : List Moment} {m : Moment} {cache : Option FileCache} {stamp : Stamp} :
      Run c past m.disk → m.IsOrdinary → (∀ own ∈ cache, own = c) → IsFileName stamp.suffix →
      Run c (m :: past) (Product.load cache m.maxDepth stamp m.product m.disk).2

section Folder

variable {c : FileCache} {past : List Moment} {d : Disk} {m : Moment} {e : String × FileTree}

theorem isFileName_blake3 (bytes : Bytes) : IsFileName (Digest.blake3 bytes) := by
  have digits : ∀ n < 16, Nat.digitChar n ≠ '/' ∧ Nat.digitChar n ≠ '\x00' := by decide
  refine ⟨?_, ?_, ?_⟩
  · intro empty
    have length := Digest.length_blake3 bytes
    rw [empty] at length
    contradiction
  · intro slash
    obtain ⟨n, small, same⟩ := Digest.mem_blake3 slash
    exact (digits n small).1 same.symm
  · intro nul
    obtain ⟨n, small, same⟩ := Digest.mem_blake3 nul
    exact (digits n small).2 same.symm

theorem isFileName_key {product key : String} {maxDepth : Nat}
    (h : d.contentKey product maxDepth = .ok key) : IsFileName key := by
  obtain ⟨digest, -, rfl⟩ := map_eq_ok_iff.1 h
  exact isFileName_blake3 _

/-- A load leaves the files as they are, or stores what it resolved. -/
theorem load_disk (cache : Option FileCache) (m : Moment) (stamp : Stamp) :
    (Product.load cache m.maxDepth stamp m.product m.disk).2 = m.disk ∨
      ∃ own ∈ cache, ∃ key raw, m.disk.contentKey m.product m.maxDepth = .ok key ∧
        m.disk.rawTemplates m.product = .ok raw ∧
        (Product.load cache m.maxDepth stamp m.product m.disk).2 =
          (own.store stamp key (Bundle.ofRaw raw m.maxDepth) m.disk).2 := by
  unfold Product.load
  split
  · exact .inl rfl
  · split
    · exact .inl rfl
    · next key known =>
      split
      · exact .inl rfl
      · split
        · exact .inl rfl
        · next raw loaded =>
          cases cache with
          | none => exact .inl rfl
          | some own => exact .inr ⟨own, rfl, key, raw, known, loaded, rfl⟩

theorem filesOnly_of_recorded {es : List (String × FileTree)}
    (recorded : ∀ e ∈ es, IsIdle e ∨ ∃ m ∈ past, m.IsOrdinary ∧
      ∃ bytes, e.2 = .file bytes ∧ m.Records bytes) : FilesOnly es := by
  intro e member
  rcases recorded e member with (folder | ⟨file, -⟩) | ⟨-, -, -, bytes, file, -⟩
  · exact .inl folder
  · exact .inr file
  · exact .inr ⟨bytes, file⟩

/-- All that is in the folder of the cache is never read, or records what was loaded. -/
theorem Run.recorded (run : Run c past d) : ∀ e ∈ c.entries d, IsIdle e ∨
    ∃ m ∈ past, m.IsOrdinary ∧ ∃ bytes, e.2 = .file bytes ∧ m.Records bytes := by
  -- only a load that stores brings in something new, and that is a record of this very load
  induction run with
  | start idle => exact fun e member => .inl (idle e member)
  | edit _ few ih =>
    intro e member
    rcases few e member with idle | old
    · exact .inl idle
    · exact ih e old
  | @load past m cache stamp run ordinary mine suffix ih =>
    intro e member
    have old (there : e ∈ c.entries m.disk) : IsIdle e ∨
        ∃ m' ∈ m :: past, m'.IsOrdinary ∧ ∃ bytes, e.2 = .file bytes ∧ m'.Records bytes := by
      rcases ih e there with idle | ⟨m', before, known⟩
      · exact .inl idle
      · exact .inr ⟨m', List.mem_cons_of_mem _ before, known⟩
    rcases load_disk cache m stamp with same | ⟨own, given, key, raw, known, loaded, same⟩
    · exact old (same ▸ member)
    · obtain rfl := mine own given
      rw [same] at member
      rcases mem_entries_of_store (filesOnly_of_recorded ih) (isFileName_key known).no_slash
          suffix.no_slash member with
        there | ⟨bytes, file, written⟩
      · exact old there
      · exact .inr ⟨m, List.mem_cons_self, ordinary, bytes, file, key, stamp.time, raw, known, loaded,
          written⟩

end Folder

theorem readDocument?_of_events {α : Type} {reader : Reader α} {text : String} {es : List Event}
    {x : α} (written : Yaml.plainEvents? text = some es)
    (read : Source.read ⟨(Node.ofEvents? Yaml.maxNesting es).getD .malformed, true⟩ reader = .ok x) :
    readDocument? reader text.toUTF8.toList = some x := by
  rw [readDocument?, Digest.fromUTF8?_utf8, Option.bind_eq_bind, Option.bind_some,
    Yaml.readText_of_plainEvents? written, read]
  rfl

theorem treeDigest_eq_ok_iff {d : Disk} {product digest : String} :
    d.treeDigest product = .ok digest ↔ ∃ cs, d.contents? product = some cs ∧ cs.digest = digest := by
  unfold Disk.treeDigest
  cases d.contents? product <;> simp

theorem read_of_mem_documents {α : Type} {reader : Reader α} {cs : Contents} {x : α}
    (h : x ∈ cs.documents reader) : ∃ n, reader n = .ok x := by
  obtain ⟨⟨name, bytes⟩, -, read⟩ := List.mem_filterMap.1 h
  obtain ⟨text, -, read⟩ := Option.bind_eq_some_iff.1 read
  obtain ⟨y, here, same⟩ := bind_eq_ok_iff.1 (toOption_eq_some_iff.1 read)
  split at same
  · obtain rfl := Except.ok.inj same
    exact ⟨_, here⟩
  · contradiction

/-- What is loaded was read from documents. -/
theorem carries_of_rawTemplates {d : Disk} {product : String} {raw : RawTemplates}
    (loaded : d.rawTemplates product = .ok raw) :
    raw.Carries Value.IsRead ∧ ∀ t ∈ raw.parameterTemplates, t.IsParted := by
  have all := Disk.rawTemplates_of_open (Disk.isFolder_of_rawTemplates loaded)
    (Disk.not_blocked_of_rawTemplates loaded)
  obtain rfl := Except.ok.inj (loaded.symm.trans all)
  refine ⟨⟨fun t member => ?_, fun t member => ?_, fun t member => ?_⟩, fun t member => ?_⟩
  all_goals obtain ⟨n, read⟩ := read_of_mem_documents member
  · exact InstanceTemplate.carries_of_read read
  · exact ApplicationTemplate.carries_of_read read
  · exact (ParameterTemplate.carries_of_read read).1
  · exact (ParameterTemplate.carries_of_read read).2

namespace Moment

variable {m old : Moment} {cs cs' : Contents} {raw : RawTemplates} {key : String} {bytes : Bytes}

theorem IsOrdinary.tracked (ordinary : m.IsOrdinary) (read : m.disk.contents? m.product = some cs) :
    m.disk.Tracked m.product cs := by
  obtain ⟨names, entries, found, -⟩ := Disk.contents?_eq_some_iff.1 read
  refine (Disk.tracked_iff ordinary.sound read found).2 fun category known => ⟨fun pipe => ?_, ?_⟩
  · have folder := ordinary.categories names entries found category known _ pipe
    contradiction
  · intro target link
    have folder := ordinary.categories names entries found category known _ link
    contradiction

theorem IsOrdinary.not_blocked (ordinary : m.IsOrdinary) (read : m.disk.contents? m.product = some cs) :
    ¬ m.disk.Blocked m.product := by
  rw [(ordinary.tracked read).blocked_iff ordinary.sound read]
  rintro ⟨category, known, bytes, file⟩
  obtain ⟨names, entries, found, -⟩ := Disk.contents?_eq_some_iff.1 read
  obtain ⟨node, entry, counts⟩ := (Disk.lookup_contents ordinary.sound found read).1 file
  have folder := ordinary.categories names entries found category known node entry
  cases node with
  | folder es =>
    rw [Content.ofNode?, Disk.category_not_hidden known] at counts
    cases counts
  | file | link | pipe => contradiction

theorem rawTemplates_eq (ordinary : m.IsOrdinary) (ordinary' : old.IsOrdinary)
    (read : m.disk.contents? m.product = some cs) (read' : old.disk.contents? old.product = some cs)
    (loaded : old.disk.rawTemplates old.product = .ok raw) :
    m.disk.rawTemplates m.product = .ok raw := by
  have agree := (Disk.rawTemplates_eq_iff ordinary.sound ordinary'.sound read read').2
    (.inr ⟨ordinary.not_blocked read, ordinary'.not_blocked read', Disk.descriptors_congr fun category known => by
      rw [(ordinary.tracked read).strays_eq known, (ordinary'.tracked read').strays_eq known]⟩)
  rw [loaded] at agree
  exact toOption_eq_some_iff.1 agree

/-- A load under the same key found the same content, and had the same limit. -/
theorem eq_of_key (ordinary : m.IsOrdinary) (ordinary' : old.IsOrdinary) (apart : m.NoCollision old)
    (known : m.disk.contentKey m.product m.maxDepth = .ok key)
    (known' : old.disk.contentKey old.product old.maxDepth = .ok key)
    (loaded : old.disk.rawTemplates old.product = .ok raw) :
    m.disk.rawTemplates m.product = .ok raw ∧ m.maxDepth = old.maxDepth := by
  obtain ⟨digest, tree, rfl⟩ := map_eq_ok_iff.1 known
  obtain ⟨digest', tree', same⟩ := map_eq_ok_iff.1 known'
  obtain ⟨cs, read, rfl⟩ := treeDigest_eq_ok_iff.1 tree
  obtain ⟨cs', read', rfl⟩ := treeDigest_eq_ok_iff.1 tree'
  have keys := apart _ _ ⟨cs, read, .inr rfl⟩ ⟨cs', read', .inr rfl⟩ same.symm
  obtain ⟨digests, depths⟩ := keyBytes_inj ordinary.fits ordinary'.fits keys
  have bytes := apart _ _ ⟨cs, read, .inl rfl⟩ ⟨cs', read', .inl rfl⟩ digests
  obtain rfl := Contents.bytes_inj (Disk.contents?_sound ordinary.sound read).1
    (Disk.contents?_sound ordinary'.sound read').1 bytes
  exact ⟨rawTemplates_eq ordinary ordinary' read read' loaded, depths⟩

/-- What is carried along can be written and read again. -/
theorem IsOrdinary.simple (ordinary : m.IsOrdinary)
    (loaded : m.disk.rawTemplates m.product = .ok raw) : raw.Carries Value.IsSimple := by
  have read := (carries_of_rawTemplates loaded).1
  have plain := ordinary.plain raw loaded
  exact read.and plain fun v read plain => read.isSimple plain

/-- What a cache holds for the key of a product is what the product resolves to. -/
theorem eq_of_hit {c : FileCache} {past : List Moment} {bundle : Bundle} (run : Run c past m.disk)
    (ordinary : m.IsOrdinary) (apart : ∀ old ∈ past, m.NoCollision old)
    (known : m.disk.contentKey m.product m.maxDepth = .ok key)
    (hit : c.read? m.disk key = some bundle) :
    ∃ raw, m.disk.rawTemplates m.product = .ok raw ∧ bundle = Bundle.ofRaw raw m.maxDepth := by
  obtain ⟨bytes, there, hit⟩ := Option.bind_eq_some_iff.1 hit
  obtain ⟨r, read, hit⟩ := Option.bind_eq_some_iff.1 hit
  split at hit
  · next right =>
    obtain rfl := Option.some.inj hit
    have inFolder := mem_of_lookup (lookup_entries_of_read (filesOnly_of_recorded run.recorded)
      (isFileName_key known).no_slash there)
    rcases run.recorded _ inFolder with (folder | ⟨-, other⟩) |
      ⟨old, before, ordinary', bytes', file, key', time, raw, known', loaded, written⟩
    · contradiction
    · exact absurd rfl (other key)
    · obtain rfl := FileTree.file.inj file
      -- the record that was read is the one that was written, so it names the key of that load
      have simple := Bundle.ofRaw_carries (ordinary'.simple loaded) old.maxDepth
      have format : CacheRecord.currentFormat < 2 ^ 32 := by decide
      obtain rfl := CacheRecord.eq_of_ofBytes? format simple (carries_of_rawTemplates loaded).2
        written read
      obtain ⟨-, rfl⟩ := right
      obtain ⟨loaded', depth⟩ := eq_of_key ordinary ordinary' (apart old before) known known' loaded
      exact ⟨raw, loaded', by rw [depth]⟩
  · contradiction

end Moment

/-- Whether there is a cache or not, a load gives the same. -/
theorem Product.load_cached {c : FileCache} {past : List Moment} {m : Moment}
    (run : Run c past m.disk) (ordinary : m.IsOrdinary)
    (apart : ∀ old ∈ past, m.NoCollision old) (stamp : Stamp) :
    (load (some c) m.maxDepth stamp m.product m.disk).1.map (fun p => (p.key, p.bundle)) =
      (load none m.maxDepth stamp m.product m.disk).1.map fun p => (p.key, p.bundle) := by
  unfold load
  split
  · rfl
  · cases known : m.disk.contentKey m.product m.maxDepth with
    | error e => rfl
    | ok key =>
      cases hit : c.read? m.disk key with
      | none =>
        simp only [Option.bind_some, hit, Option.bind_none]
        cases m.disk.rawTemplates m.product <;> rfl
      | some bundle =>
        obtain ⟨raw, loaded, rfl⟩ := Moment.eq_of_hit run ordinary apart known hit
        simp only [Option.bind_some, hit, Option.bind_none, loaded]
        rfl

def shop (ports : Value) : InstanceTemplate where
  name := "Shop"
  groups := [{
    name := "web"
    applications := [{
      application := some "app"
      processControl := Dictionary.empty.insert "ports" ports }] }]

def wordEvent (text : String) : Event := .scalar (.written text true none)

/-- What is written of the shop, with the events of its ports. -/
def shopEvents (ports : List Event) : List Event :=
  [.openMapping (.written none), wordEvent "name", wordEvent "Shop", wordEvent "groups",
    .openSequence (.written none), .openMapping (.written none), wordEvent "name", wordEvent "web",
    wordEvent "applications", .openSequence (.written none), .openMapping (.written none),
    wordEvent "application", wordEvent "app", wordEvent "processControl", .openMapping (.written none),
    wordEvent "ports"] ++ ports ++ List.replicate 6 .close

theorem shop_carries_iff {P : Value → Prop} {ports : Value} :
    (shop ports).Carries P ↔ P ports := by
  have entries : (Dictionary.empty.insert "ports" ports).entries = [("ports", ports)] := rfl
  simp [InstanceTemplate.Carries, Group.Carries, Application.Carries, shop, entries]

theorem shopBundle_carries_iff {P : Value → Prop} {ports : Value} :
    ({ instanceTemplates := [shop ports] } : Bundle).Carries P ↔ P ports := by
  constructor
  · intro carries
    exact shop_carries_iff.1 (carries.instances _ (List.mem_singleton.2 rfl))
  · intro holds
    exact ⟨List.forall_mem_singleton.2 (shop_carries_iff.2 holds), List.forall_mem_nil _,
      List.forall_mem_nil _⟩

def siteCache : FileCache := ⟨"cache"⟩

theorem siteCache_opened (product : FileTree) (records : List (String × FileTree)) :
    Opened siteCache ⟨.folder [("product", product), ("cache", .folder records)], []⟩ ["cache"]
      records := by
  apply opened_of_found
  · rw [siteCache]
    decide +kernel
  · exact Disk.found?_name ⟨by decide, by decide⟩ ⟨by decide, by decide, by decide⟩ rfl rfl (by simp)

def stallBytes (port : Nat) : Bytes :=
  ("name: Shop\ngroups:\n- name: web\n  applications:\n  - application: app\n" ++
    "    processControl:\n      ports: " ++ Decimal.naturalText port).toUTF8.toList

def stallContents (port : Nat) : Contents :=
  [("instance-templates", .folder [("shop.yaml", .file (stallBytes port))])]

def stallBundle (port : Nat) : Bundle where
  instanceTemplates := [shop (.number (.integer port))]

/-- A product with the shop alone, beside the folder of a cache. -/
def stall (port : Nat) (records : List (String × FileTree)) : Moment where
  disk := ⟨.folder [
    ("product", .folder [("instance-templates", .folder [("shop.yaml", .file (stallBytes port))])]),
    ("cache", .folder records)], []⟩
  product := "product"
  maxDepth := 64

def stallStamp : Stamp := ⟨"2024-05-06T07:08:09Z", "1"⟩

def stallRecord (port : Nat) (key : String) : CacheRecord :=
  ⟨CacheRecord.currentFormat, key, stallStamp.time, stallBundle port⟩

/-- Whether the shop is what its file describes, with the digest of the product and its key, under
which a record can be stored. -/
structure IsStall (port : Nat) (digest key : String) : Prop where
  fits : (stallBytes port).length < UInt64.size
  plain : (Value.number (.integer port)).IsPlain
  parsed : readDocument? InstanceTemplate.read (stallBytes port) =
    some (shop (.number (.integer port)))
  tree : Digest.blake3 (stallContents port).bytes = digest
  keyed : Digest.blake3 (keyBytes digest 64) = key
  written : (stallRecord port key).toBytes?.any (·.length < UInt64.size) = true
  shallow : (stallRecord port key).toValue.toJson.toOption.any (·.nesting ≤ Json.maxNesting) = true
  named : Disk.isName (key ++ ".json") = true ∧
    Disk.isName (key ++ "." ++ stallStamp.suffix ++ ".tmp") = true

section Stall

variable {port port' : Nat} {digest digest' key key' : String} {bytes : Bytes}
  {records records' : List (String × FileTree)}

theorem found?_stall : (stall port records).disk.found? "product" = some (["product"],
    .folder [("instance-templates", .folder [("shop.yaml", .file (stallBytes port))])]) :=
  Disk.found?_name ⟨by decide, by decide⟩ ⟨by decide, by decide, by decide⟩ rfl rfl (by simp)

theorem isFolder_stall : (stall port records).disk.isFolder "product" = true :=
  Disk.isFolder_iff.2 ⟨_, _, found?_stall⟩

theorem stall_opened : Opened siteCache (stall port records).disk ["cache"] records :=
  siteCache_opened _ _

theorem contents?_stall :
    (stall port records).disk.contents? "product" = some (stallContents port) := by
  have shown : Content.isHidden "shop.yaml" = false := by decide +kernel
  have shown' : Content.isHidden "instance-templates" = false := by decide +kernel
  refine Disk.contents?_eq_some_iff.2 ⟨_, _, found?_stall, ?_⟩
  simp [stallContents, Content.ofEntries, Content.ofNode?, shown, shown', Text.sortOn]

theorem ofRaw_shop (ports : Value) :
    Bundle.ofRaw { instanceTemplates := [shop ports] } 64 = { instanceTemplates := [shop ports] } := by
  have expanded : expandVariables [] [] [] = [] :=
    Expansion.expandReferences_of_plain [] [] (List.forall_mem_nil _)
  have kept : Bundle.resolveInstance { instanceTemplates := [shop ports] } 64 (shop ports) =
      some (shop ports) := by
    with_unfolding_all
      exact congrArg (fun vs => some { shop ports with instanceVariables := vs }) expanded
  simp [Bundle.ofRaw, kept, Text.sortOn]

namespace IsStall

theorem contentKey_eq (own : IsStall port digest key) :
    (stall port records).disk.contentKey "product" 64 = .ok key := by
  have read : (stall port records).disk.treeDigest "product" = .ok digest :=
    treeDigest_eq_ok_iff.2 ⟨_, contents?_stall, own.tree⟩
  rw [Disk.contentKey, read, ← own.keyed]
  rfl

theorem rawTemplates_eq (own : IsStall port digest key) :
    (stall port records).disk.rawTemplates "product" =
      .ok { instanceTemplates := [shop (.number (.integer port))] } :=
  Disk.rawTemplates_of_instance found?_stall (by decide +kernel) (by decide +kernel) own.parsed

theorem isOrdinary (own : IsStall port digest key) (sound : (FileTree.folder records).Sound) :
    (stall port records).IsOrdinary where
  sound := by
    have file : IsFileName "shop.yaml" := ⟨by decide, by decide, by decide⟩
    have names : IsFileName "product" ∧ IsFileName "cache" :=
      ⟨⟨by decide, by decide, by decide⟩, ⟨by decide, by decide, by decide⟩⟩
    have inside : (FileTree.folder [("shop.yaml", .file (stallBytes port))]).Sound :=
      .folder (by simp) (by simpa using file) (by simpa using .file own.fits)
    have product : (FileTree.folder
        [("instance-templates", .folder [("shop.yaml", .file (stallBytes port))])]).Sound :=
      .folder (by simp) (by simpa using (Disk.category_isEntry (by simp [categories])).1)
        (by simpa using inside)
    exact .folder (by simp) (by simpa using names) (by simpa using ⟨product, sound⟩)
  fits := by
    change 64 < UInt64.size
    decide
  categories names entries there category _ node entry := by
    obtain ⟨-, folder⟩ := Prod.mk.inj (Option.some.inj (found?_stall.symm.trans there))
    obtain rfl := FileTree.folder.inj folder
    obtain ⟨-, rfl⟩ := Prod.mk.inj (List.mem_singleton.1 (mem_of_lookup entry))
    rfl
  plain raw loaded := by
    obtain rfl := Except.ok.inj (own.rawTemplates_eq.symm.trans loaded)
    exact ⟨List.forall_mem_singleton.2 (shop_carries_iff.2 own.plain), List.forall_mem_nil _,
      List.forall_mem_nil _⟩

/-- The shop is told from another by four digests. -/
theorem noCollision (own : IsStall port digest key) (other : IsStall port' digest' key')
    (trees : digest = digest' → port = port') (keys : key = key' → digest = digest')
    (apart : digest ≠ key') (apart' : key ≠ digest') :
    (stall port records).NoCollision (stall port' records') := by
  rintro bytes bytes' ⟨cs, read, hashed⟩ ⟨cs', read', hashed'⟩ same
  obtain rfl := Option.some.inj (contents?_stall.symm.trans read)
  obtain rfl := Option.some.inj (contents?_stall.symm.trans read')
  rw [own.tree] at hashed
  rw [other.tree] at hashed'
  rcases hashed with rfl | rfl <;> rcases hashed' with rfl | rfl
  · rw [own.tree, other.tree] at same
    rw [trees same]
  · exact absurd (own.tree.symm.trans (same.trans other.keyed)) apart
  · exact absurd (own.keyed.symm.trans (same.trans other.tree)) apart'
  · rw [keys (own.keyed.symm.trans (same.trans other.keyed))]
    rfl

theorem isFileName (own : IsStall port digest key) : IsFileName key :=
  own.keyed ▸ isFileName_blake3 _

theorem exists_record (own : IsStall port digest key) :
    ∃ bytes, (stallRecord port key).toBytes? = some bytes ∧ bytes.length < UInt64.size ∧
      CacheRecord.ofBytes? bytes = some (stallRecord port key) := by
  obtain ⟨bytes, written, small⟩ := (Option.any_eq_true _ _).1 own.written
  have carried : (stallBundle port).Carries Value.IsSimple := by
    rw [stallBundle, shopBundle_carries_iff]
    cases own.plain with
    | integer low high => exact .number (Json.numberAtom?_integer low high)
  have format : CacheRecord.currentFormat < 2 ^ 32 := by decide
  have timed : Timestamp.isTimestamp stallStamp.time = true := by decide +kernel
  refine ⟨bytes, written, by simpa using small,
    CacheRecord.ofBytes?_of_shallow format timed carried (List.forall_mem_nil _) (fun j json => ?_) written⟩
  have shallow := own.shallow
  rw [json] at shallow
  exact of_decide_eq_true shallow

theorem load_miss (own : IsStall port digest key) (free : records.lookup (key ++ ".json") = none)
    (free' : records.lookup (key ++ "." ++ stallStamp.suffix ++ ".tmp") = none)
    (written : (stallRecord port key).toBytes? = some bytes) :
    Opened siteCache
      (Product.load (some siteCache) 64 stallStamp "product" (stall port records).disk).2 ["cache"]
      (records ++ [(key ++ ".json", .file bytes)]) := by
  have opened : Opened siteCache (stall port records).disk ["cache"] records := stall_opened
  have plain := own.isFileName.no_slash
  have proper := isEntryName_entry plain
  have place := opened.places_of_free proper.toIsSegment (proper.isEntryStep own.named.1) free
  have miss : siteCache.read? (stall port records).disk key = none := by
    rw [read?, FileCache.entryPath, Disk.read?, Disk.found?, place.1]
    rfl
  obtain ⟨d', stored, -, opened'⟩ :=
    opened.store_new plain (by decide) own.named.1 own.named.2 free free' written
  have loads : (Product.load (some siteCache) 64 stallStamp "product"
      (stall port records).disk).2 = d' := by
    simp only [Product.load, isFolder_stall, own.contentKey_eq, Option.bind_some, miss, own.rawTemplates_eq,
      ofRaw_shop]
    rw [← stallBundle, stored]
    rfl
  rw [loads]
  exact opened'

theorem load_hit (own : IsStall port digest key)
    (there : records.lookup (key ++ ".json") = some (.file bytes))
    (read : CacheRecord.ofBytes? bytes = some (stallRecord port key)) :
    (Product.load (some siteCache) 64 stallStamp "product" (stall port records).disk).1 =
      .ok ⟨key, stallBundle port, true, false⟩ := by
  have opened : Opened siteCache (stall port records).disk ["cache"] records := stall_opened
  have proper := isEntryName_entry own.isFileName.no_slash
  have place :=
    opened.places_of_entry proper.toIsSegment (proper.isEntryStep own.named.1) there (by simp)
  have found : (stall port records).disk.read? (siteCache.entryPath key) = some bytes :=
    Disk.read?_eq_some_iff.2 ⟨_, Disk.found?_eq_some_iff.2 place.1⟩
  have hit : siteCache.read? (stall port records).disk key = some (stallBundle port) := by
    rw [read?, found, Option.bind_eq_bind, Option.bind_some, read, Option.bind_eq_bind,
      Option.bind_some, if_pos ⟨rfl, rfl⟩, stallRecord]
  simp only [Product.load, isFolder_stall, own.contentKey_eq, Option.bind_some, hit]
  rfl

/-- The shop is loaded and put on sale under another port, beside the record of that load. -/
theorem run_load {past : List Moment} (own : IsStall port digest key)
    (run : Run siteCache past (stall port records).disk) (sound : (FileTree.folder records).Sound)
    (free : records.lookup (key ++ ".json") = none)
    (free' : records.lookup (key ++ "." ++ stallStamp.suffix ++ ".tmp") = none)
    (written : (stallRecord port key).toBytes? = some bytes) (port' : Nat) :
    Run siteCache (stall port records :: past)
      (stall port' (records ++ [(key ++ ".json", .file bytes)])).disk := by
  have suffix : IsFileName stallStamp.suffix := ⟨by decide, by decide, by decide⟩
  have loaded : Run siteCache (stall port records :: past)
      (Product.load (some siteCache) 64 stallStamp "product" (stall port records).disk).2 :=
    .load (m := stall port records) run (own.isOrdinary sound) (by simp) suffix
  have stored := own.load_miss free free' written
  refine .edit loaded fun e member => .inr ?_
  rwa [stall_opened.entries_eq, ← stored.entries_eq] at member

end IsStall
end Stall

def key80 : String := "b58243311a31cbd6a19483131d283d3a43156e058d05312f82879d8aff4274d8"

def key8080 : String := "8e1aeb23663bdb6cb82f81f29587a0a1665d65205d16b5a8e7f4f92816170618"

theorem isStall_80 : IsStall 80 "7f5e37d9ed0cb5ac906c9377b78e23fa3925ae1f3835806dc3341124d260eaba"
    key80 where
  fits := by decide +kernel
  plain := .integer (by decide) (by decide)
  parsed :=
    readDocument?_of_events (show _ = some (shopEvents [wordEvent "80"]) by decide +kernel) rfl
  tree := by decide +kernel
  keyed := by decide +kernel
  written := by decide +kernel
  shallow := by decide +kernel
  named := by decide +kernel

theorem isStall_8080 : IsStall 8080
    "51ddb8dc3ad37538083c0da65a835cb733a6d0c09966b45a714b421ce784be82"
    key8080 where
  fits := by decide +kernel
  plain := .integer (by decide) (by decide)
  parsed :=
    readDocument?_of_events (show _ = some (shopEvents [wordEvent "8080"]) by decide +kernel) rfl
  tree := by decide +kernel
  keyed := by decide +kernel
  written := by decide +kernel
  shallow := by decide +kernel
  named := by decide +kernel

/-- The shop is changed and changed back. What is loaded in between is stored beside the record of the
first load, which the last load finds. -/
theorem Product.load_cached_hit : ∃ records records' key,
    Run siteCache [stall 8080 records, stall 80 []] (stall 80 records').disk ∧
    (stall 80 records').IsOrdinary ∧
    (∀ old ∈ [stall 8080 records, stall 80 []], (stall 80 records').NoCollision old) ∧
    (stall 8080 records).disk.rawTemplates "product" =
      .ok { instanceTemplates := [shop (.number (.integer 8080))] } ∧
    (load (some siteCache) 64 stallStamp "product" (stall 80 records').disk).1 =
      .ok ⟨key, stallBundle 80, true, false⟩ ∧
    (load (some siteCache) 64 stallStamp "product" (stall 80 records').disk).1.map
        (fun p => (p.key, p.bundle)) =
      (load none 64 stallStamp "product" (stall 80 records').disk).1.map
        fun p => (p.key, p.bundle) := by
  obtain ⟨bytes, written, fits, read⟩ := isStall_80.exists_record
  obtain ⟨bytes', written', fits', -⟩ := isStall_8080.exists_record
  let records := [(key80 ++ ".json", FileTree.file bytes)]
  let records' := records ++ [(key8080 ++ ".json", FileTree.file bytes')]
  have names : IsFileName (key80 ++ ".json") ∧ IsFileName (key8080 ++ ".json") :=
    ⟨⟨by decide, by decide, by decide⟩, ⟨by decide, by decide, by decide⟩⟩
  have differ : key8080 ++ ".json" ≠ key80 ++ ".json" ∧
      key8080 ++ "." ++ stallStamp.suffix ++ ".tmp" ≠ key80 ++ ".json" := by decide
  have free : records.lookup (key8080 ++ ".json") = none :=
    List.lookup_eq_none_iff.2 (by simpa [records] using differ.1)
  have free' : records.lookup (key8080 ++ "." ++ stallStamp.suffix ++ ".tmp") = none :=
    List.lookup_eq_none_iff.2 (by simpa [records] using differ.2)
  have sound : (FileTree.folder []).Sound := .folder (by simp) (by simp) (by simp)
  have sound' : (FileTree.folder records).Sound :=
    .folder (by simp [records]) (by simpa [records] using names.1) (by simpa [records] using .file fits)
  have sound'' : (FileTree.folder records').Sound := by
    refine .folder ?_ ?_ ?_
    · simpa [records', records] using differ.1.symm
    · simpa [records', records] using names
    · simpa [records', records] using ⟨.file fits, .file fits'⟩
  have start : Run siteCache [] (stall 80 []).disk := .start (by simp [stall_opened.entries_eq])
  have changed : Run siteCache [stall 80 []] (stall 8080 records).disk :=
    isStall_80.run_load start sound rfl rfl written 8080
  have restored : Run siteCache [stall 8080 records, stall 80 []] (stall 80 records').disk :=
    isStall_8080.run_load changed sound' free free' written' 80
  have ordinary := isStall_80.isOrdinary sound''
  have apart : ∀ old ∈ [stall 8080 records, stall 80 []], (stall 80 records').NoCollision old := by
    rw [List.forall_mem_cons, List.forall_mem_singleton]
    exact ⟨isStall_80.noCollision isStall_8080 (by decide) (by decide) (by decide) (by decide),
      isStall_80.noCollision isStall_80 (fun _ => rfl) (fun _ => rfl) (by decide) (by decide)⟩
  exact ⟨records, records', key80, restored, ordinary, apart, isStall_8080.rawTemplates_eq,
    isStall_80.load_hit (by simp [records', records]) read,
    load_cached restored ordinary apart stallStamp⟩

end ProductTemplates
