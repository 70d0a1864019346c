import ProductTemplates.Proofs.Cache.Folder
import ProductTemplates.Proofs.Cache.Record
import ProductTemplates.Proofs.FileTree.Moving

/-! A cache as a store with keys. Over any run of stores, all files in its folder are records under the
names of their keys: what is read for a key is what was stored last for it, and a store that fails
leaves everything as it was. -/
namespace ProductTemplates

/-- What a store is asked to keep. -/
structure Deposit where
  stamp : Stamp
  key : String
  bundle : Bundle

namespace Deposit

def record (s : Deposit) : CacheRecord :=
  { format := CacheRecord.currentFormat, key := s.key, createdAt := s.stamp.time, bundle := s.bundle }

/-- Whether the names that a store makes are names within its folder. -/
structure IsNamed (s : Deposit) : Prop where
  key : '/' ∉ s.key.toList
  suffix : '/' ∉ s.stamp.suffix.toList

/-- Whether JSON has a form for all that is kept, so that it comes back. -/
structure IsFaithful (s : Deposit) : Prop where
  carried : s.bundle.Carries Value.IsSimple
  parted : ∀ t ∈ s.bundle.parameterTemplates, t.IsParted
  timed : Timestamp.isTimestamp s.stamp.time = true
  shallow : ∀ j, s.record.toValue.toJson = .ok j → j.nesting ≤ Json.maxNesting

theorem IsFaithful.ofBytes? {s : Deposit} {bytes : Bytes} (faithful : s.IsFaithful)
    (written : s.record.toBytes? = some bytes) : CacheRecord.ofBytes? bytes = some s.record :=
  CacheRecord.ofBytes?_of_shallow (show CacheRecord.currentFormat < 2 ^ 32 by decide) faithful.timed
    faithful.carried faithful.parted faithful.shallow written

end Deposit

namespace FileCache

open Disk FileTree

/-- A run of stores in a folder that is not there, or has nothing but folders in it: what was stored,
the latest first, and the files after it. -/
inductive Used (c : FileCache) : List Deposit → Disk → Prop where
  | start {d : Disk} : (∀ e ∈ c.entries d, e.2.isFolder = true) → Used c [] d
  | stored {past : List Deposit} {s : Deposit} {d d' : Disk} : Used c past d → s.IsNamed →
      c.store s.stamp s.key s.bundle d = (.ok (), d') → Used c (s :: past) d'
  | failed {past : List Deposit} {s : Deposit} {d d' : Disk} {fault : StoreError} : Used c past d →
      s.IsNamed → c.store s.stamp s.key s.bundle d = (.error fault, d') → Used c past d'

/-- A folder that is yet to be made has nothing in it. -/
example : entries ⟨"cache"⟩ {} = [] := by cbv

/-- Whether there are only files and folders in the folder of a cache, and every file in it is what is
read for the key that it is named after. -/
structure Orderly (c : FileCache) (d : Disk) : Prop where
  ordinary : FilesOnly (c.entries d)
  named : ∀ name bytes, (c.entries d).lookup name = some (.file bytes) →
    ∃ key, '/' ∉ key.toList ∧ name = key ++ ".json" ∧ d.read? (c.entryPath key) = some bytes

variable {c : FileCache} {d d' d₁ : Disk} {spot spot' : List String} {name key : String}
  {es es' : List (String × FileTree)} {bytes : Bytes} {s : Deposit} {past : List Deposit}

theorem Orderly.read?_iff (orderly : c.Orderly d) (plain : '/' ∉ key.toList) :
    d.read? (c.entryPath key) = some bytes ↔
      (c.entries d).lookup (key ++ ".json") = some (.file bytes) := by
  constructor
  · exact lookup_entries_of_read orderly.ordinary plain
  · intro there
    obtain ⟨key', -, same, read⟩ := orderly.named _ _ there
    rwa [(String.append_left_inj _).1 same]

theorem Orderly.made {made : Bool} (orderly : c.Orderly d) (makes : d.makeFolders c.dir = (made, d₁)) :
    c.Orderly d₁ := by
  obtain ⟨grows, here, -⟩ := makeEach_again makes
  have same := entries_of_made makes
  refine ⟨same ▸ orderly.ordinary, fun name bytes there => ?_⟩
  rw [same] at there
  obtain ⟨key, plain, rfl, read⟩ := orderly.named name bytes there
  obtain ⟨path, found⟩ := read?_eq_some_iff.1 read
  exact ⟨key, plain, rfl, read?_eq_some_iff.2 ⟨path, found?_of_grows grows here found⟩⟩

theorem Opened.isName (opened : Opened c d spot es) (proper : IsEntryName name) {place : Place}
    (h : d.place? (Path.join c.dir name) = some place ∨
      d.ownPlace? (Path.join c.dir name) = some place) : Disk.isName name = true := by
  obtain ⟨inside, left, places⟩ := places_join opened.found
  obtain ⟨through, own⟩ := places _ proper.toIsSegment
  rcases h with h | h
  · rw [through] at h
    exact isName_of_walk inside proper h
  · rw [own] at h
    exact isName_of_walk inside proper h

theorem Opened.written (opened : Opened c d spot es) (ordinary : FilesOnly es)
    (proper : IsEntryName name) (wrote : d.write? (Path.join c.dir name) bytes = some d') :
    d'.ownPlace? (Path.join c.dir name) = some (.found (spot ++ [name]) (.file bytes)) := by
  have short : Disk.isName name = true := by
    unfold Disk.write? at wrote
    split at wrote
    · next place => exact opened.isName proper (.inl place)
    · next place => exact opened.isName proper (.inl place)
    · contradiction
  exact ((opened.write? ordinary proper wrote).places_of_entry proper.toIsSegment
    (proper.isEntryStep short) lookup_alterEntry_put (by simp)).2

theorem Orderly.isName (orderly : c.Orderly d) (opened : Opened c d spot es)
    (there : es.lookup name = some (.file bytes)) :
    ∃ key, '/' ∉ key.toList ∧ name = key ++ ".json" ∧ Disk.isName name = true := by
  rw [← opened.entries_eq] at there
  obtain ⟨key, plain, rfl, read⟩ := orderly.named name bytes there
  obtain ⟨path, found⟩ := read?_eq_some_iff.1 read
  exact ⟨key, plain, rfl, opened.isName (isEntryName_entry plain) (.inl (found?_eq_some_iff.1 found))⟩

theorem Opened.orderly (opened : Opened c d spot es) (ordinary : FilesOnly es)
    (named : ∀ name bytes, es.lookup name = some (.file bytes) →
      ∃ key, '/' ∉ key.toList ∧ name = key ++ ".json" ∧ Disk.isName name = true) : c.Orderly d := by
  rw [← opened.entries_eq] at ordinary
  refine ⟨ordinary, fun name bytes there => ?_⟩
  rw [opened.entries_eq] at there
  obtain ⟨key, plain, rfl, short⟩ := named name bytes there
  have proper := isEntryName_entry plain
  have place := opened.places_of_entry proper.toIsSegment (proper.isEntryStep short) there (by simp)
  exact ⟨key, plain, rfl, read?_eq_some_iff.2 ⟨_, found?_eq_some_iff.2 place.1⟩⟩

theorem Orderly.free_beside {suffix : String} (orderly : c.Orderly d) (opened : Opened c d spot es)
    (plain : '/' ∉ key.toList) (plain' : '/' ∉ suffix.toList)
    (wrote : d.write? (Path.join c.dir (key ++ "." ++ suffix ++ ".tmp")) bytes = some d') :
    es.lookup (key ++ "." ++ suffix ++ ".tmp") = none := by
  have proper := isEntryName_beside plain plain'
  have ordinary := opened.entries_eq ▸ orderly.ordinary
  unfold Disk.write? at wrote
  split at wrote
  · next names old place =>
    have stands := opened.place ordinary proper (.inl place)
    split at stands
    · next node entry =>
      obtain ⟨-, rfl⟩ := Place.found.inj stands
      obtain ⟨other, -, same, -⟩ := orderly.isName opened entry
      exact absurd same.symm entry_ne_beside
    · contradiction
  · next folder free place =>
    have stands := opened.place ordinary proper (.inl place)
    split at stands
    · contradiction
    · next entry => exact entry
  · contradiction

section Beside

variable {beside : String} {d₂ d₃ : Disk}

/-- A record that is moved to its place is all that is new. -/
theorem Orderly.moved (orderly : c.Orderly d) (opened : Opened c d spot es) (plain : '/' ∉ key.toList)
    (proper : IsEntryName beside) (differ : key ++ ".json" ≠ beside) (free : es.lookup beside = none)
    (wrote : d.write? (Path.join c.dir beside) bytes = some d₂)
    (moved : d₂.move? (Path.join c.dir beside) (c.entryPath key) = some d₃) :
    c.Orderly d₃ ∧ ∀ name, (c.entries d₃).lookup name =
      if name = key ++ ".json" then some (.file bytes) else (c.entries d).lookup name := by
  have ordinary := opened.entries_eq ▸ orderly.ordinary
  have proper' := isEntryName_entry plain
  have opened₂ := opened.write? ordinary proper wrote
  have opened₃ := opened₂.move? ordinary.write proper proper' differ lookup_alterEntry_put moved
  have lookups (name : String) : (c.entries d₃).lookup name =
      if name = key ++ ".json" then some (.file bytes) else (c.entries d).lookup name := by
    rw [opened₃.entries_eq, opened.entries_eq]
    split
    · next same => rw [same, lookup_alterEntry_put]
    · next other => rw [lookup_alterEntry_other other, alterEntry_back free]
  have short : Disk.isName (key ++ ".json") = true := by
    obtain ⟨place, enters, -⟩ := move?_eq_some (opened.written ordinary proper wrote) moved
    exact opened₂.isName proper' (.inr enters)
  refine ⟨opened₃.orderly ordinary.write.erase.write fun name bytes' there => ?_, lookups⟩
  rw [← opened₃.entries_eq, lookups] at there
  split at there
  · next same => exact ⟨key, plain, same, same ▸ short⟩
  · rw [opened.entries_eq] at there
    exact orderly.isName opened there

theorem Orderly.removed (orderly : c.Orderly d) (opened : Opened c d spot es)
    (proper : IsEntryName beside) (free : es.lookup beside = none)
    (wrote : d.write? (Path.join c.dir beside) bytes = some d₂) :
    c.Orderly ((d₂.remove? (Path.join c.dir beside)).getD d₂) ∧ ∀ name,
      (c.entries ((d₂.remove? (Path.join c.dir beside)).getD d₂)).lookup name =
        (c.entries d).lookup name := by
  have ordinary := opened.entries_eq ▸ orderly.ordinary
  have opened₂ := opened.write? ordinary proper wrote
  obtain ⟨d₃, removes⟩ : ∃ d₃, d₂.remove? (Path.join c.dir beside) = some d₃ := by
    rw [Disk.remove?, opened.written ordinary proper wrote]
    exact ⟨_, rfl⟩
  have opened₃ := opened₂.remove? ordinary.write proper lookup_alterEntry_put removes
  rw [removes, Option.getD_some]
  have lookups (name : String) : (c.entries d₃).lookup name = (c.entries d).lookup name := by
    rw [opened₃.entries_eq, opened.entries_eq, alterEntry_back free]
  refine ⟨opened₃.orderly ordinary.write.erase fun name bytes' there => ?_, lookups⟩
  rw [← opened₃.entries_eq, lookups, opened.entries_eq] at there
  exact orderly.isName opened there

end Beside

/-- A store that went well puts its record under its key, one that failed changes no entry. -/
theorem Orderly.store {outcome : Except StoreError Unit} (orderly : c.Orderly d) (own : s.IsNamed)
    (stores : c.store s.stamp s.key s.bundle d = (outcome, d')) : c.Orderly d' ∧
    ((∃ bytes, outcome = .ok () ∧ s.record.toBytes? = some bytes ∧ ∀ name,
        (c.entries d').lookup name =
          if name = s.key ++ ".json" then some (.file bytes) else (c.entries d).lookup name) ∨
      ∃ fault, outcome = .error fault ∧
        ∀ name, (c.entries d').lookup name = (c.entries d).lookup name) := by
  rcases store_cases stores with ⟨made, fault, rfl, makes⟩ |
    ⟨d₁, d₂, bytes, makes, written, wrote, ended⟩
  · exact ⟨orderly.made makes, .inr ⟨fault, rfl, fun name => by rw [entries_of_made makes]⟩⟩
  · have proper := isEntryName_beside own.key own.suffix
    obtain ⟨spot, es, folder⟩ := exists_folder_of_write? proper.toIsSegment wrote
    have opened : Opened c d₁ spot es := ⟨isFolder_of_makeEach makes, folder⟩
    have orderly₁ := orderly.made makes
    have free := orderly₁.free_beside opened own.key own.suffix wrote
    rw [← entries_of_made makes]
    rcases ended with ⟨rfl, moved⟩ | ⟨fault, rfl, rfl⟩
    · obtain ⟨orderly', lookups⟩ :=
        orderly₁.moved opened own.key proper entry_ne_beside free wrote moved
      exact ⟨orderly', .inl ⟨bytes, rfl, written, lookups⟩⟩
    · obtain ⟨orderly', lookups⟩ := orderly₁.removed opened proper free wrote
      exact ⟨orderly', .inr ⟨fault, rfl, lookups⟩⟩

theorem lookup_of_folders (folders : ∀ e ∈ es, e.2.isFolder = true) :
    es.lookup name ≠ some (.file bytes) := by
  intro there
  have folder := folders _ (mem_of_lookup there)
  contradiction

/-- After any run the folder is in order, and its files are the records of what was stored last. -/
theorem Used.orderly (used : Used c past d) : c.Orderly d ∧
    ∀ name bytes, (c.entries d).lookup name = some (.file bytes) ↔ ∃ key s, name = key ++ ".json" ∧
      past.find? (·.key == key) = some s ∧ s.record.toBytes? = some bytes := by
  induction used with
  | start folders =>
    refine ⟨⟨fun e member => .inl (folders e member), fun name bytes there => ?_⟩, fun name bytes => ?_⟩
    · exact absurd there (lookup_of_folders folders)
    · simp [lookup_of_folders folders]
  | @stored past s d d' _ own stores ih =>
    obtain ⟨orderly, known⟩ := ih
    obtain ⟨orderly', ⟨bytes, -, written, lookups⟩ | ⟨fault, error, -⟩⟩ := orderly.store own stores
    · refine ⟨orderly', fun name bytes' => ?_⟩
      rw [lookups]
      split
      · next same =>
        constructor
        · intro there
          obtain rfl := FileTree.file.inj (Option.some.inj there)
          exact ⟨s.key, s, same, by simp, written⟩
        · rintro ⟨key, last, named, found, written'⟩
          obtain rfl := (String.append_left_inj _).1 (named.symm.trans same)
          obtain rfl : s = last := by simpa using found
          rw [Option.some.inj (written'.symm.trans written)]
      · next other =>
        rw [known]
        refine exists_congr fun key => exists_congr fun last => and_congr_right fun named => ?_
        have differ : (s.key == key) = false := by
          rw [beq_eq_false_iff_ne]
          rintro rfl
          exact other named
        rw [List.find?_cons, differ]
    · contradiction
  | @failed past s d d' fault _ own stores ih =>
    obtain ⟨orderly, known⟩ := ih
    obtain ⟨orderly', ⟨bytes, error, -⟩ | ⟨fault', -, lookups⟩⟩ := orderly.store own stores
    · contradiction
    · refine ⟨orderly', fun name bytes => ?_⟩
      rw [lookups, known]

theorem Used.written (used : Used c past d) (member : s ∈ past) : ∃ bytes, s.record.toBytes? = some bytes := by
  induction used with
  | start => contradiction
  | @stored past new d d' before own stores ih =>
    rcases List.mem_cons.1 member with rfl | old
    · obtain ⟨-, ⟨bytes, -, written, -⟩ | ⟨fault, error, -⟩⟩ := before.orderly.1.store own stores
      · exact ⟨bytes, written⟩
      · contradiction
    · exact ih old
  | failed _ _ _ ih => exact ih member

theorem read?_congr (same : d'.read? (c.entryPath key) = d.read? (c.entryPath key)) :
    c.read? d' key = c.read? d key := by rw [FileCache.read?, same, FileCache.read?]

theorem Orderly.read?_congr (orderly : c.Orderly d) (orderly' : c.Orderly d') (plain : '/' ∉ key.toList)
    (same : (c.entries d').lookup (key ++ ".json") = (c.entries d).lookup (key ++ ".json")) :
    c.read? d' key = c.read? d key := by
  refine FileCache.read?_congr (Option.ext fun bytes => ?_)
  rw [orderly.read?_iff plain, orderly'.read?_iff plain, same]

theorem read?_eq_none (missing : d.read? (c.entryPath key) = none) : c.read? d key = none := by
  rw [FileCache.read?, missing]
  rfl

/-- What is read for a key is the bundle of a record in the current format with this very key. -/
theorem exists_record_of_read? {bundle : Bundle} (read : c.read? d key = some bundle) :
    ∃ bytes r, d.read? (c.entryPath key) = some bytes ∧ CacheRecord.ofBytes? bytes = some r ∧
      r.format = CacheRecord.currentFormat ∧ r.key = key ∧ r.bundle = bundle := by
  obtain ⟨bytes, there, found⟩ := Option.bind_eq_some_iff.1 read
  obtain ⟨r, record, right⟩ := Option.bind_eq_some_iff.1 found
  split at right
  · next current =>
    exact ⟨bytes, r, there, record, current.1, current.2, Option.some.inj right⟩
  · contradiction

theorem Used.read?_eq_none (used : Used c past d) (plain : '/' ∉ key.toList)
    (never : past.find? (·.key == key) = none) : c.read? d key = none := by
  obtain ⟨orderly, known⟩ := used.orderly
  refine FileCache.read?_eq_none (Option.eq_none_iff_forall_ne_some.2 fun bytes there => ?_)
  obtain ⟨key', s, same, found, -⟩ := (known _ _).1 ((orderly.read?_iff plain).1 there)
  obtain rfl := (String.append_left_inj _).1 same
  rw [never] at found
  contradiction

/-- What was stored last for a key is read, if JSON has a form for it. -/
theorem Used.read?_last (used : Used c past d) (plain : '/' ∉ key.toList)
    (last : past.find? (·.key == key) = some s) (faithful : s.IsFaithful) :
    c.read? d key = some s.bundle := by
  obtain ⟨orderly, known⟩ := used.orderly
  obtain ⟨bytes, written⟩ := used.written (List.mem_of_find?_eq_some last)
  have there := (orderly.read?_iff plain).2 ((known _ _).2 ⟨key, s, rfl, last, written⟩)
  have own : s.key = key := by simpa using List.find?_some last
  rw [FileCache.read?, there, Option.bind_eq_bind, Option.bind_some, faithful.ofBytes? written,
    Option.bind_eq_bind, Option.bind_some, if_pos ⟨rfl, own⟩]
  rfl

theorem Orderly.read?_store_other {outcome : Except StoreError Unit} (orderly : c.Orderly d)
    (own : s.IsNamed) (stores : c.store s.stamp s.key s.bundle d = (outcome, d'))
    (plain : '/' ∉ key.toList) (other : key ≠ s.key) : c.read? d' key = c.read? d key := by
  obtain ⟨orderly', changed⟩ := orderly.store own stores
  refine orderly.read?_congr orderly' plain ?_
  rcases changed with ⟨bytes, -, -, lookups⟩ | ⟨fault, -, lookups⟩
  · rw [lookups, if_neg fun same => other ((String.append_left_inj _).1 same)]
  · rw [lookups]

theorem Orderly.store_failed {fault : StoreError} (orderly : c.Orderly d) (own : s.IsNamed)
    (stores : c.store s.stamp s.key s.bundle d = (.error fault, d')) :
    (∀ key, '/' ∉ key.toList → c.read? d' key = c.read? d key) ∧
      ∀ name, (c.entries d').lookup name = (c.entries d).lookup name := by
  obtain ⟨orderly', ⟨bytes, error, -⟩ | ⟨fault', -, lookups⟩⟩ := orderly.store own stores
  · contradiction
  · exact ⟨fun key plain => orderly.read?_congr orderly' plain (lookups _), lookups⟩

/-- Over a run of stores, what is read for a key is the bundle that was last stored for it, and nothing
if none was. A store changes nothing for other keys, and one that fails nothing at all; no files are
left but records under the names of their keys. Whatever the files are, only a record in the current
format that names the key is ever read for it. -/
theorem Used.keyed (used : Used c past d) :
    (∀ key, '/' ∉ key.toList → past.find? (·.key == key) = none → c.read? d key = none) ∧
    (∀ key s, '/' ∉ key.toList → past.find? (·.key == key) = some s → s.IsFaithful →
      c.read? d key = some s.bundle) ∧
    (∀ (s : Deposit) outcome d', s.IsNamed → c.store s.stamp s.key s.bundle d = (outcome, d') →
      (∀ key, '/' ∉ key.toList → key ≠ s.key → c.read? d' key = c.read? d key) ∧
      ∀ fault, outcome = .error fault →
        (∀ key, '/' ∉ key.toList → c.read? d' key = c.read? d key) ∧
        ∀ name, (c.entries d').lookup name = (c.entries d).lookup name) ∧
    (∀ name bytes, (c.entries d).lookup name = some (.file bytes) →
      ∃ s ∈ past, name = s.key ++ ".json") ∧
    ∀ (other : Disk) key bundle, c.read? other key = some bundle → ∃ bytes r,
      other.read? (c.entryPath key) = some bytes ∧ CacheRecord.ofBytes? bytes = some r ∧
        r.format = CacheRecord.currentFormat ∧ r.key = key ∧ r.bundle = bundle := by
  obtain ⟨orderly, known⟩ := used.orderly
  refine ⟨fun key plain never => used.read?_eq_none plain never,
    fun key s plain last faithful => used.read?_last plain last faithful,
    fun s outcome d' own stores => ⟨fun key plain other => ?_, ?_⟩, fun name bytes there => ?_,
    fun other key bundle read => exists_record_of_read? read⟩
  · exact orderly.read?_store_other own stores plain other
  · rintro fault rfl
    exact orderly.store_failed own stores
  · obtain ⟨key, s, rfl, found, -⟩ := (known name bytes).1 there
    have same : s.key = key := by simpa using List.find?_some found
    exact ⟨s, List.mem_of_find?_eq_some found, by rw [same]⟩

/-- A folder for a cache, in which another folder has the name of a record. -/
def shelf : Disk := ⟨.folder [("shelf", .folder [("b.json", .folder [])])], []⟩

def shelfCache : FileCache := ⟨"shelf"⟩

def spare (key : String) : Deposit where
  stamp := ⟨"2024-05-06T07:08:09Z", "1"⟩
  key := key
  bundle := { applicationTemplates := [{ id := "base" }] }

theorem shelf_opened : Opened shelfCache shelf ["shelf"] [("b.json", .folder [])] := by
  apply opened_of_found
  · rw [shelfCache]
    decide +kernel
  · exact found?_name ⟨by decide, by decide⟩ ⟨by decide, by decide, by decide⟩ rfl rfl (by simp)

theorem spare_isFaithful (key : String) (shallow : (spare key).record.toValue.toJson.toOption.map
    Json.nesting = some 4) : (spare key).IsFaithful where
  carried := ⟨by simp [spare], by simp [spare, Application.Carries, Dictionary.empty], by simp [spare]⟩
  parted := by simp [spare]
  timed := by
    change Timestamp.isTimestamp "2024-05-06T07:08:09Z" = true
    decide +kernel
  shallow j json := by
    rw [json] at shallow
    obtain same : j.nesting = 4 := Option.some.inj shallow
    rw [same]
    decide

/-- What was stored is read, and a store that finds a folder in its way leaves it so. -/
theorem shelf_keyed : ∃ d₁ d₂, shelfCache.store ⟨"2024-05-06T07:08:09Z", "1"⟩ "a" (spare "a").bundle
      shelf = (.ok (), d₁) ∧
    shelfCache.store ⟨"2024-05-06T07:08:09Z", "1"⟩ "b" (spare "b").bundle d₁ =
      (.error (.move (shelfCache.entryPath "b")), d₂) ∧
    shelfCache.read? d₁ "b" = none ∧ shelfCache.read? d₂ "b" = none ∧
    shelfCache.read? d₂ "a" = some (spare "a").bundle := by
  have suffix : '/' ∉ "1".toList := by decide
  have own : (spare "a").IsNamed := ⟨by decide, suffix⟩
  have own' : (spare "b").IsNamed := ⟨by decide, suffix⟩
  obtain ⟨bytes, written⟩ := Option.isSome_iff_exists.1
    (show (spare "a").record.toBytes?.isSome = true by decide +kernel)
  obtain ⟨bytes', written'⟩ := Option.isSome_iff_exists.1
    (show (spare "b").record.toBytes?.isSome = true by decide +kernel)
  obtain ⟨d₁, stored, -, opened⟩ := @Opened.store_new _ _ _ _ _ _ ⟨"2024-05-06T07:08:09Z", "1"⟩
    (spare "a").bundle shelf_opened own.key suffix (by decide +kernel) (by decide +kernel) rfl rfl written
  obtain ⟨d₂, stuck⟩ := @Opened.store_occupied _ _ _ _ _ _ ⟨"2024-05-06T07:08:09Z", "1"⟩
    (spare "b").bundle [] opened own'.key suffix (by decide +kernel) (by decide +kernel) rfl rfl written'
  have used : Used shelfCache [spare "a"] d₁ :=
    .stored (.start (by simp [shelf_opened.entries_eq, FileTree.isFolder])) own stored
  have faithful := spare_isFaithful "a" (by decide +kernel)
  obtain ⟨never, last, stores, -⟩ := used.keyed
  obtain ⟨others, failed⟩ := stores (spare "b") _ d₂ own' stuck
  refine ⟨d₁, d₂, stored, stuck, never "b" own'.key rfl, ?_, ?_⟩
  · rw [(failed _ rfl).1 "b" own'.key]
    exact never "b" own'.key rfl
  · rw [others "a" own.key (by decide)]
    exact last "a" (spare "a") own.key rfl faithful

end FileCache
end ProductTemplates
