import ProductTemplates.Cache
import ProductTemplates.Proofs.FileTree.Making

/-! The folder of a cache. A store brings at most the bytes of its record into the folder, whether it
succeeds or fails, and what is read for a key is a file of the folder. -/
namespace ProductTemplates

namespace Disk

open FileTree

variable {root : FileTree} {follow : Bool} {links : Nat} {spot : List String} {name : String}
  {es : List (String × FileTree)} {place : Place}

/-- Names that are neither of the two that lead elsewhere. -/
structure IsEntryName (name : String) : Prop extends IsSegment name where
  not_here : name ≠ "."
  not_up : name ≠ ".."

theorem IsEntryName.isEntryStep (proper : IsEntryName name) (short : isName name = true) :
    IsEntryStep name := ⟨proper.not_here, proper.not_up, short⟩

theorem isName_of_walk (folder : root.get? spot = some (.folder es)) (proper : IsEntryName name)
    (h : walk root follow links spot [name] = some place) : isName name = true := by
  rw [← Bool.not_eq_false]
  intro other
  rw [walk, folder] at h
  simp [proper.not_here, proper.not_up, other] at h

theorem place_of_name (folder : root.get? spot = some (.folder es)) (proper : IsEntryName name)
    (own : ∀ e ∈ es, ∀ target, e.2 ≠ .link target)
    (h : walk root follow links spot [name] = some place) :
    place = match es.lookup name with
      | some node => .found (spot ++ [name]) node
      | none => .vacant spot name := by
  have plain := proper.isEntryStep (isName_of_walk folder proper h)
  cases entry : es.lookup name with
  | none =>
    rw [walk_free folder plain entry] at h
    exact (Option.some.inj h).symm
  | some node =>
    have there : root.get? (spot ++ [name]) = some node := (get?_entry folder).trans entry
    rw [walk_entry folder plain entry (own _ (mem_of_lookup entry)), walk, there] at h
    exact (Option.some.inj h).symm

end Disk

namespace FileCache

open Disk FileTree

variable {c : FileCache} {d d' : Disk} {spot : List String} {name key : String} {node : FileTree}
  {es : List (String × FileTree)} {bytes : Bytes} {stamp : Stamp} {bundle : Bundle}

/-- What is in the folder of a cache once the folder is made. -/
def entries (c : FileCache) (d : Disk) : List (String × FileTree) :=
  match (d.makeFolders c.dir).2.found? (Path.join c.dir ".") with
  | some (_, .folder es) => es
  | _ => []

/-- Whether the folder of a cache is there, at a path of names. -/
structure Opened (c : FileCache) (d : Disk) (spot : List String) (es : List (String × FileTree)) :
    Prop where
  made : ∀ path ∈ stages c.dir, d.isFolder path = true
  found : d.found? (Path.join c.dir ".") = some (spot, .folder es)

theorem opened_of_found (single : stages c.dir = [c.dir])
    (found : d.found? c.dir = some (spot, .folder es)) : Opened c d spot es := by
  constructor
  · rw [single, List.forall_mem_singleton]
    exact isFolder_iff.2 ⟨_, _, found⟩
  · obtain ⟨left, there, place⟩ := place?_join found dot_isSegment
    rw [found?_eq_some_iff, place, walk_here there, walk, there]
    rfl

theorem Opened.entries_eq (opened : Opened c d spot es) : c.entries d = es := by
  rw [entries, makeFolders, makeEach_of_folders opened.made, opened.found]

/-- The folder stays when the entry of a file, or of nothing, is changed. -/
theorem Opened.alter {f : Option FileTree → Option FileTree} (opened : Opened c d spot es)
    (file : ∀ old, es.lookup name = some old → ∃ bytes, old = .file bytes) :
    Opened c { d with root := d.root.alter f (spot ++ [name]) } spot (alterEntry name f es) := by
  have there := get?_of_found? opened.found
  have keeps : d.root.Keeps (d.root.alter f (spot ++ [name])) := keeps_alter there file
  exact ⟨fun path member => isFolder_of_keeps keeps rfl (opened.made path member),
    found?_of_keeps keeps rfl opened.found (get?_alter there) (by simp)⟩

def FilesOnly (es : List (String × FileTree)) : Prop :=
  ∀ e ∈ es, e.2.isFolder = true ∨ ∃ bytes, e.2 = .file bytes

theorem FilesOnly.not_link (ordinary : FilesOnly es) : ∀ e ∈ es, ∀ target, e.2 ≠ .link target := by
  intro e member target link
  rcases ordinary e member with folder | ⟨bytes, file⟩
  · rw [link] at folder
    contradiction
  · rw [link] at file
    contradiction

theorem FilesOnly.alterEntry (ordinary : FilesOnly es) {f : Option FileTree → Option FileTree}
    (new : ∀ old node, f old = some node → ∃ bytes, node = .file bytes) :
    FilesOnly (alterEntry name f es) := by
  intro e member
  rcases mem_alterEntry member with old | ⟨old, made⟩
  · exact ordinary e old
  · exact .inr (new old e.2 made)

theorem FilesOnly.write (ordinary : FilesOnly es) :
    FilesOnly (FileTree.alterEntry name (fun _ => some (.file bytes)) es) :=
  ordinary.alterEntry fun _ _ new => ⟨bytes, (Option.some.inj new).symm⟩

theorem FilesOnly.erase (ordinary : FilesOnly es) :
    FilesOnly (FileTree.alterEntry name (fun _ => none) es) := ordinary.alterEntry (by simp)

theorem isEntryName_append {ending : String} (plain : '/' ∉ name.toList) (plain' : '/' ∉ ending.toList)
    (long : 3 ≤ ending.length) : IsEntryName (name ++ ending) := by
  have length : 3 ≤ (name ++ ending).length := by
    rw [String.length_append]
    omega
  refine ⟨⟨?_, ?_⟩, ?_, ?_⟩
  · intro same
    rw [same] at length
    exact absurd length (by decide)
  · rw [String.toList_append, List.mem_append, not_or]
    exact ⟨plain, plain'⟩
  · intro same
    rw [same] at length
    exact absurd length (by decide)
  · intro same
    rw [same] at length
    exact absurd length (by decide)

theorem isEntryName_entry (plain : '/' ∉ key.toList) : IsEntryName (key ++ ".json") :=
  isEntryName_append plain (by decide) (by decide)

theorem isEntryName_beside {suffix : String} (plain : '/' ∉ key.toList)
    (plain' : '/' ∉ suffix.toList) : IsEntryName (key ++ "." ++ suffix ++ ".tmp") := by
  refine isEntryName_append ?_ (by decide) (by decide)
  simp [plain, plain']

theorem entry_ne_beside {other suffix : String} : other ++ ".json" ≠ key ++ "." ++ suffix ++ ".tmp" := by
  intro same
  have reversed := congrArg (fun s : String => s.toList.reverse) same
  simp at reversed

theorem lookup_entries_of_read (ordinary : FilesOnly (c.entries d)) (plain : '/' ∉ key.toList)
    (read : d.read? (c.entryPath key) = some bytes) :
    (c.entries d).lookup (key ++ ".json") = some (.file bytes) := by
  obtain ⟨path, found⟩ := read?_eq_some_iff.1 read
  rcases makes : d.makeFolders c.dir with ⟨made, d₁⟩
  obtain ⟨grows, here, -⟩ := makeEach_again makes
  have proper := isEntryName_entry plain
  have place := found?_eq_some_iff.1 (found?_of_grows grows here found)
  obtain ⟨spot, es, folder⟩ := exists_folder_of_join proper.toIsSegment place
  have same : c.entries d = es := by rw [entries, makes, folder]
  rw [same] at ordinary ⊢
  obtain ⟨inside, left, places⟩ := places_join folder
  rw [entryPath, (places _ proper.toIsSegment).1] at place
  have stands := place_of_name inside proper ordinary.not_link place
  split at stands
  · next node entry =>
    obtain ⟨-, rfl⟩ := Place.found.inj stands
    exact entry
  · contradiction

/-- Where a name leads in the folder of a cache. -/
theorem Opened.place (opened : Opened c d spot es) (ordinary : FilesOnly es)
    (proper : IsEntryName name) {place : Place} (h : d.place? (Path.join c.dir name) = some place ∨
      d.ownPlace? (Path.join c.dir name) = some place) :
    place = match es.lookup name with
      | some node => .found (spot ++ [name]) node
      | none => .vacant spot name := by
  obtain ⟨inside, left, places⟩ := places_join opened.found
  obtain ⟨through, own⟩ := places _ proper.toIsSegment
  rcases h with h | h
  · rw [through] at h
    exact place_of_name inside proper ordinary.not_link h
  · rw [own] at h
    exact place_of_name inside proper ordinary.not_link h

theorem Opened.write? (opened : Opened c d spot es) (ordinary : FilesOnly es)
    (proper : IsEntryName name) (h : d.write? (Path.join c.dir name) bytes = some d') :
    Opened c d' spot (FileTree.alterEntry name (fun _ => some (.file bytes)) es) := by
  unfold Disk.write? at h
  split at h
  · next names old place =>
    obtain rfl := Option.some.inj h
    have stands := opened.place ordinary proper (.inl place)
    split at stands
    · next node entry =>
      obtain ⟨rfl, rfl⟩ := Place.found.inj stands
      exact opened.alter fun node same => ⟨_, Option.some.inj (same.symm.trans entry)⟩
    · contradiction
  · next folder free place =>
    obtain rfl := Option.some.inj h
    have stands := opened.place ordinary proper (.inl place)
    split at stands
    · contradiction
    · next entry =>
      obtain ⟨rfl, rfl⟩ := Place.vacant.inj stands
      exact opened.alter fun node same => absurd (same.symm.trans entry) (by simp)
  · contradiction

theorem Opened.remove? (opened : Opened c d spot es) (ordinary : FilesOnly es)
    (proper : IsEntryName name) (source : es.lookup name = some (.file bytes))
    (h : d.remove? (Path.join c.dir name) = some d') :
    Opened c d' spot (FileTree.alterEntry name (fun _ => none) es) := by
  unfold Disk.remove? at h
  split at h
  · next names old place =>
    obtain rfl := Option.some.inj h
    have stands := opened.place ordinary proper (.inr place)
    rw [source] at stands
    obtain ⟨rfl, -⟩ := Place.found.inj stands
    exact opened.alter fun node same => ⟨bytes, Option.some.inj (same.symm.trans source)⟩
  · contradiction

/-- A file that is moved leaves its name, and takes the place of a file or a free name. -/
theorem Opened.move? {target : String} (opened : Opened c d spot es) (ordinary : FilesOnly es)
    (proper : IsEntryName name) (proper' : IsEntryName target) (differ : target ≠ name)
    (source : es.lookup name = some (.file bytes))
    (h : d.move? (Path.join c.dir name) (Path.join c.dir target) = some d') :
    Opened c d' spot (FileTree.alterEntry target (fun _ => some (.file bytes))
      (FileTree.alterEntry name (fun _ => none) es)) := by
  have removed := @Opened.alter _ _ _ name _ (fun _ => none) opened
    fun node same => ⟨bytes, Option.some.inj (same.symm.trans source)⟩
  have still : (FileTree.alterEntry name (fun _ => none) es).lookup target = es.lookup target :=
    lookup_alterEntry_other differ
  unfold Disk.move? at h
  split at h
  · next old node folder free leaves enters =>
    obtain rfl := Option.some.inj h
    have there := opened.place ordinary proper (.inr leaves)
    rw [source] at there
    obtain ⟨rfl, rfl⟩ := Place.found.inj there
    have stands := opened.place ordinary proper' (.inr enters)
    split at stands
    · contradiction
    · next entry =>
      obtain ⟨rfl, rfl⟩ := Place.vacant.inj stands
      exact removed.alter fun node same => absurd (same.symm.trans (still.trans entry)) (by simp)
  · next old node names other leaves enters =>
    split at h
    · contradiction
    · next file =>
      obtain rfl := Option.some.inj h
      have there := opened.place ordinary proper (.inr leaves)
      rw [source] at there
      obtain ⟨rfl, rfl⟩ := Place.found.inj there
      have stands := opened.place ordinary proper' (.inr enters)
      split at stands
      · next entry =>
        obtain ⟨rfl, rfl⟩ := Place.found.inj stands
        refine removed.alter fun node same => ?_
        obtain rfl := Option.some.inj (same.symm.trans (still.trans entry))
        exact (ordinary _ (mem_of_lookup entry)).resolve_left file
      · contradiction
  · contradiction

theorem Opened.places_of_entry (opened : Opened c d spot es) (clean : IsSegment name)
    (plain : IsEntryStep name) (entry : es.lookup name = some node)
    (own : ∀ target, node ≠ .link target) :
    d.place? (Path.join c.dir name) = some (.found (spot ++ [name]) node) ∧
      d.ownPlace? (Path.join c.dir name) = some (.found (spot ++ [name]) node) := by
  obtain ⟨inside, left, places⟩ := places_join opened.found
  have there : d.root.get? (spot ++ [name]) = some node := (get?_entry inside).trans entry
  rw [(places _ clean).1, (places _ clean).2, walk_entry inside plain entry own,
    walk_entry inside plain entry own, walk, walk, there]
  exact ⟨rfl, rfl⟩

theorem Opened.places_of_free (opened : Opened c d spot es) (clean : IsSegment name)
    (plain : IsEntryStep name) (free : es.lookup name = none) :
    d.place? (Path.join c.dir name) = some (.vacant spot name) ∧
      d.ownPlace? (Path.join c.dir name) = some (.vacant spot name) := by
  obtain ⟨inside, left, places⟩ := places_join opened.found
  rw [(places _ clean).1, (places _ clean).2, walk_free inside plain free,
    walk_free inside plain free, if_pos rfl]
  exact ⟨rfl, rfl⟩

theorem Opened.write_new (opened : Opened c d spot es) (clean : IsSegment name)
    (plain : IsEntryStep name) (free : es.lookup name = none) (bytes : Bytes) :
    ∃ d', d.write? (Path.join c.dir name) bytes = some d' ∧
      Opened c d' spot (FileTree.alterEntry name (fun _ => some (.file bytes)) es) := by
  rw [Disk.write?, (opened.places_of_free clean plain free).1]
  exact ⟨_, rfl, opened.alter fun old same => absurd (same.symm.trans free) (by simp)⟩

theorem Opened.move_new {target : String} (opened : Opened c d spot es) (clean : IsSegment name)
    (plain : IsEntryStep name) (source : es.lookup name = some (.file bytes))
    (clean' : IsSegment target) (plain' : IsEntryStep target) (free : es.lookup target = none) :
    ∃ d', d.move? (Path.join c.dir name) (Path.join c.dir target) = some d' ∧
      Opened c d' spot (FileTree.alterEntry target (fun _ => some (.file bytes))
        (FileTree.alterEntry name (fun _ => none) es)) := by
  have differ : target ≠ name := by
    rintro rfl
    rw [source] at free
    contradiction
  have removed := @Opened.alter _ _ _ name _ (fun _ => none) opened
    fun old same => ⟨bytes, Option.some.inj (same.symm.trans source)⟩
  have still : (FileTree.alterEntry name (fun _ => none) es).lookup target = none :=
    (lookup_alterEntry_other differ).trans free
  rw [Disk.move?, (opened.places_of_entry clean plain source (by simp)).2,
    (opened.places_of_free clean' plain' free).2]
  exact ⟨_, rfl, removed.alter fun old same => absurd (same.symm.trans still) (by simp)⟩

/-- A record is stored in a folder that is there, under names that are free. -/
theorem Opened.store_new (opened : Opened c d spot es) (plain : '/' ∉ key.toList)
    (suffix : '/' ∉ stamp.suffix.toList) (short : isName (key ++ ".json") = true)
    (short' : isName (key ++ "." ++ stamp.suffix ++ ".tmp") = true)
    (free : es.lookup (key ++ ".json") = none)
    (free' : es.lookup (key ++ "." ++ stamp.suffix ++ ".tmp") = none)
    (written : (CacheRecord.mk CacheRecord.currentFormat key stamp.time bundle).toBytes? = some bytes) :
    ∃ d', c.store stamp key bundle d = (.ok (), d') ∧ d'.read? (c.entryPath key) = some bytes ∧
      Opened c d' spot (es ++ [(key ++ ".json", .file bytes)]) := by
  have proper := isEntryName_entry plain
  have proper' := isEntryName_beside plain suffix
  have step := proper.isEntryStep short
  have step' := proper'.isEntryStep short'
  have makes : d.makeFolders c.dir = (true, d) := makeEach_of_folders opened.made
  obtain ⟨d₁, wrote, opened₁⟩ := opened.write_new proper'.toIsSegment step' free' bytes
  obtain ⟨d₂, moved, opened₂⟩ := opened₁.move_new proper'.toIsSegment step' lookup_alterEntry_put
    proper.toIsSegment step ((lookup_alterEntry_other entry_ne_beside).trans free)
  have last : FileTree.alterEntry (key ++ ".json") (fun _ => some (.file bytes)) es =
      es ++ [(key ++ ".json", .file bytes)] := alterEntry_free free
  have there := (opened₂.places_of_entry proper.toIsSegment step lookup_alterEntry_put (by simp)).1
  rw [alterEntry_back free', last] at opened₂
  refine ⟨d₂, ?_, ?_, opened₂⟩
  · unfold store entryPath
    rw [makes, written]
    dsimp only
    rw [wrote]
    dsimp only
    rw [moved]
  · exact read?_eq_some_iff.2 ⟨_, found?_eq_some_iff.2 there⟩

theorem Opened.store_occupied {inner : List (String × FileTree)} (opened : Opened c d spot es)
    (plain : '/' ∉ key.toList) (suffix : '/' ∉ stamp.suffix.toList)
    (short : isName (key ++ ".json") = true)
    (short' : isName (key ++ "." ++ stamp.suffix ++ ".tmp") = true)
    (occupied : es.lookup (key ++ ".json") = some (.folder inner))
    (free : es.lookup (key ++ "." ++ stamp.suffix ++ ".tmp") = none)
    (written : (CacheRecord.mk CacheRecord.currentFormat key stamp.time bundle).toBytes? = some bytes) :
    ∃ d', c.store stamp key bundle d = (.error (.move (c.entryPath key)), d') := by
  have proper := isEntryName_entry plain
  have proper' := isEntryName_beside plain suffix
  have makes : d.makeFolders c.dir = (true, d) := makeEach_of_folders opened.made
  obtain ⟨d₁, wrote, opened₁⟩ :=
    opened.write_new proper'.toIsSegment (proper'.isEntryStep short') free bytes
  have here := (opened₁.places_of_entry proper'.toIsSegment (proper'.isEntryStep short')
    lookup_alterEntry_put (by simp)).2
  have there := (opened₁.places_of_entry proper.toIsSegment (proper.isEntryStep short)
    ((lookup_alterEntry_other entry_ne_beside).trans occupied) (by simp)).2
  have stuck : d₁.move? (Path.join c.dir (key ++ "." ++ stamp.suffix ++ ".tmp"))
      (Path.join c.dir (key ++ ".json")) = none := by
    rw [Disk.move?, here, there]
    rfl
  unfold store entryPath
  rw [makes, written]
  dsimp only
  rw [wrote]
  dsimp only
  rw [stuck]
  exact ⟨_, rfl⟩

theorem exists_folder_of_write? (clean : IsSegment name)
    (h : d.write? (Path.join c.dir name) bytes = some d') :
    ∃ spot es, d.found? (Path.join c.dir ".") = some (spot, .folder es) := by
  unfold Disk.write? at h
  split at h
  · next place => exact exists_folder_of_join clean place
  · next place => exact exists_folder_of_join clean place
  · contradiction

/-- Once a record is written beside its place, it is moved there or removed, and nothing else is
new. -/
theorem Opened.stored (opened : Opened c d spot es) (ordinary : FilesOnly es)
    (plain : '/' ∉ key.toList) (suffix : '/' ∉ stamp.suffix.toList)
    (wrote : d.write? (Path.join c.dir (key ++ "." ++ stamp.suffix ++ ".tmp")) bytes = some d') :
    (∀ moved, d'.move? (Path.join c.dir (key ++ "." ++ stamp.suffix ++ ".tmp")) (c.entryPath key) =
        some moved → ∀ e ∈ c.entries moved, e ∈ es ∨ e.2 = .file bytes) ∧
      ∀ e ∈ c.entries ((d'.remove? (Path.join c.dir (key ++ "." ++ stamp.suffix ++ ".tmp"))).getD d'),
        e ∈ es ∨ e.2 = .file bytes := by
  have proper := isEntryName_beside plain suffix
  have differ := @entry_ne_beside key key stamp.suffix
  have beside := opened.write? ordinary proper wrote
  generalize key ++ "." ++ stamp.suffix ++ ".tmp" = name at *
  have source := @lookup_alterEntry_put (.file bytes) name es
  have ordinary' := @FilesOnly.write name es bytes ordinary
  have known : ∀ e ∈ FileTree.alterEntry name (fun _ => some (.file bytes)) es,
      e ∈ es ∨ e.2 = .file bytes := by
    intro e member
    rcases mem_alterEntry member with old | ⟨_, new⟩
    · exact .inl old
    · exact .inr (Option.some.inj new).symm
  have left {es : List (String × FileTree)} {e : String × FileTree}
      (member : e ∈ FileTree.alterEntry name (fun _ => none) es) : e ∈ es := by
    rcases mem_alterEntry member with old | ⟨_, new⟩
    · exact old
    · contradiction
  constructor
  · intro moved h e member
    have there := beside.move? ordinary' proper (isEntryName_entry plain) differ source h
    rw [there.entries_eq] at member
    rcases mem_alterEntry member with old | ⟨_, new⟩
    · exact known e (left old)
    · exact .inr (Option.some.inj new).symm
  · intro e member
    cases removed : d'.remove? (Path.join c.dir name) with
    | none =>
      rw [removed, Option.getD_none, beside.entries_eq] at member
      exact known e member
    | some last =>
      rw [removed, Option.getD_some, (beside.remove? ordinary' proper source removed).entries_eq]
        at member
      exact known e (left member)

/-- A store fails before it writes anything, and then only folders were made; or it writes its record
beside its place, which is then moved there or removed again. -/
theorem store_cases {outcome : Except StoreError Unit}
    (stores : c.store stamp key bundle d = (outcome, d')) :
    (∃ made fault, outcome = .error fault ∧ d.makeFolders c.dir = (made, d')) ∨
    ∃ d₁ d₂ bytes, d.makeFolders c.dir = (true, d₁) ∧
      (CacheRecord.mk CacheRecord.currentFormat key stamp.time bundle).toBytes? = some bytes ∧
      d₁.write? (Path.join c.dir (key ++ "." ++ stamp.suffix ++ ".tmp")) bytes = some d₂ ∧
      ((outcome = .ok () ∧ d₂.move? (Path.join c.dir (key ++ "." ++ stamp.suffix ++ ".tmp"))
          (c.entryPath key) = some d') ∨
        ∃ fault, outcome = .error fault ∧
          d' = (d₂.remove? (Path.join c.dir (key ++ "." ++ stamp.suffix ++ ".tmp"))).getD d₂) := by
  unfold store at stores
  split at stores
  · next d₁ makes =>
    obtain ⟨rfl, rfl⟩ := Prod.mk.inj stores
    exact .inl ⟨false, _, rfl, makes⟩
  · next d₁ makes =>
    split at stores
    · obtain ⟨rfl, rfl⟩ := Prod.mk.inj stores
      exact .inl ⟨true, _, rfl, makes⟩
    · next bytes written =>
      dsimp only at stores
      split at stores
      · obtain ⟨rfl, rfl⟩ := Prod.mk.inj stores
        exact .inl ⟨true, _, rfl, makes⟩
      · next d₂ wrote =>
        refine .inr ⟨d₁, d₂, bytes, makes, written, wrote, ?_⟩
        split at stores
        · next d₃ moved =>
          obtain ⟨rfl, rfl⟩ := Prod.mk.inj stores
          exact .inl ⟨rfl, moved⟩
        · obtain ⟨rfl, rfl⟩ := Prod.mk.inj stores
          exact .inr ⟨_, rfl, rfl⟩

theorem entries_of_made {made : Bool} (makes : d.makeFolders c.dir = (made, d')) :
    c.entries d' = c.entries d := by
  obtain ⟨-, -, again⟩ := makeEach_again makes
  rw [entries, makeFolders, again, entries, makes]

/-- A store brings no entries into the folder but files with the bytes of its record. -/
theorem mem_entries_of_store (ordinary : FilesOnly (c.entries d)) (plain : '/' ∉ key.toList)
    (suffix : '/' ∉ stamp.suffix.toList) {e : String × FileTree}
    (member : e ∈ c.entries (c.store stamp key bundle d).2) :
    e ∈ c.entries d ∨ ∃ bytes, e.2 = .file bytes ∧
      (CacheRecord.mk CacheRecord.currentFormat key stamp.time bundle).toBytes? = some bytes := by
  rcases stores : c.store stamp key bundle d with ⟨outcome, d'⟩
  rw [stores] at member
  rcases store_cases stores with ⟨made, fault, -, makes⟩ |
    ⟨d₁, d₂, bytes, makes, written, wrote, ended⟩
  · exact .inl (entries_of_made makes ▸ member)
  · have proper := isEntryName_beside plain suffix
    obtain ⟨spot, es, folder⟩ := exists_folder_of_write? proper.toIsSegment wrote
    have opened : Opened c d₁ spot es := ⟨isFolder_of_makeEach makes, folder⟩
    rw [← entries_of_made makes, opened.entries_eq] at ordinary ⊢
    have known := opened.stored ordinary plain suffix wrote
    have among : e ∈ es ∨ e.2 = .file bytes := by
      rcases ended with ⟨-, moved⟩ | ⟨fault, -, rfl⟩
      · exact known.1 d' moved e member
      · exact known.2 e member
    exact among.imp_right fun new => ⟨bytes, new, written⟩

end FileCache
end ProductTemplates
