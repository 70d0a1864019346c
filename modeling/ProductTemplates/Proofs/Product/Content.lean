import ProductTemplates.Proofs.FileTree.Walking
import ProductTemplates.Proofs.Product.Encoding
import ProductTemplates.Proofs.Text.Order

/-! Content as it comes from a folder: an entry of the content is an entry of the folder that
counts, under the same name, and sound files have sound content. -/
namespace ProductTemplates

namespace Content

variable {d : Disk} {folder name : String} {node : FileTree} {content : Content}
  {entries : List (String × FileTree)}

theorem ofEntries_eq_filterMap : ofEntries d folder entries =
    entries.filterMap fun (name, node) => (ofNode? d folder name node).map (name, ·) := by
  induction entries with
  | nil => rfl
  | cons e rest ih =>
    obtain ⟨name, node⟩ := e
    rw [ofEntries, ih]
    cases counts : ofNode? d folder name node <;> simp [counts]

theorem mem_ofEntries : (name, content) ∈ ofEntries d folder entries ↔
    ∃ node, (name, node) ∈ entries ∧ ofNode? d folder name node = some content := by
  simp only [ofEntries_eq_filterMap, List.mem_filterMap, Option.map_eq_some_iff, Prod.mk.injEq,
    Prod.exists]
  constructor
  · rintro ⟨_, node, member, _, counts, rfl, rfl⟩
    exact ⟨node, member, counts⟩
  · rintro ⟨node, member, counts⟩
    exact ⟨name, node, member, content, counts, rfl, rfl⟩

/-- Content has the names of the entries that count, in their order. -/
theorem names_ofEntries_sublist :
    ((ofEntries d folder entries).map (·.1)).Sublist (entries.map (·.1)) := by
  induction entries with
  | nil => simp [ofEntries]
  | cons e rest ih =>
    obtain ⟨other, node⟩ := e
    rw [ofEntries]
    cases ofNode? d folder other node with
    | some c => exact ih.cons_cons _
    | none => exact ih.cons _

end Content

namespace Disk

variable {d : Disk} {base name : String} {bytes : Bytes} {cs : Contents} {content : Content}
  {path : List String} {node : FileTree} {entries : List (String × FileTree)}

theorem found?_sound (sound : d.root.Sound) (found : d.found? base = some (path, node)) :
    node.Sound := sound.get? (get?_of_found? found)

theorem sortOn_ofEntries_sound (names : ∀ e ∈ entries, IsFileName e.1)
    (sounds : ∀ e ∈ entries, ∀ content, Content.ofNode? d base e.1 e.2 = some content →
      content.Sound) :
    (Content.folder (Text.sortOn (·.1) (Content.ofEntries d base entries))).Sound := by
  constructor
  · rintro ⟨name, content⟩ member
    obtain ⟨node, member, -⟩ := Content.mem_ofEntries.1 (Text.mem_sortOn.1 member)
    exact names _ member
  · rintro ⟨name, content⟩ member
    obtain ⟨node, member, counts⟩ := Content.mem_ofEntries.1 (Text.mem_sortOn.1 member)
    exact sounds _ member content counts

theorem ofNode?_sound (sound : d.root.Sound) (own : node.Sound)
    (counts : Content.ofNode? d base name node = some content) : content.Sound := by
  induction own generalizing base name content with
  | folder _ names _ ih =>
    unfold Content.ofNode? at counts
    split at counts
    · contradiction
    · obtain rfl := Option.some.inj counts
      exact sortOn_ofEntries_sound names fun e member _ counts => ih e member counts
  | file fits =>
    unfold Content.ofNode? at counts
    split at counts
    · contradiction
    · obtain rfl := Option.some.inj counts
      exact .file fits
  | link =>
    unfold Content.ofNode? at counts
    split at counts
    · contradiction
    · obtain ⟨bytes, read, rfl⟩ := Option.map_eq_some_iff.1 counts
      obtain ⟨path, found⟩ := read?_eq_some_iff.1 read
      cases found?_sound sound found with | file fits => exact .file fits
  | pipe => simp [Content.ofNode?] at counts

theorem contents?_eq_some_iff : d.contents? base = some cs ↔
    ∃ path entries, d.found? base = some (path, .folder entries) ∧
      cs = Text.sortOn (·.1) (Content.ofEntries d base entries) := by
  unfold contents?
  split
  · next path entries there =>
    constructor
    · rintro h
      exact ⟨path, entries, there, (Option.some.inj h).symm⟩
    · rintro ⟨path', entries', there', rfl⟩
      obtain ⟨rfl, rfl⟩ : path = path' ∧ entries = entries' := by simpa [there] using there'
      rfl
  · next other =>
    constructor
    · rintro ⟨⟩
    · rintro ⟨path, entries, there, -⟩
      exact absurd there (other path entries)

theorem isFolder_iff_contents : d.isFolder base = true ↔ ∃ cs, d.contents? base = some cs := by
  rw [isFolder_iff]
  constructor
  · rintro ⟨names, entries, found⟩
    exact ⟨_, contents?_eq_some_iff.2 ⟨names, entries, found, rfl⟩⟩
  · rintro ⟨cs, read⟩
    obtain ⟨names, entries, found, -⟩ := contents?_eq_some_iff.1 read
    exact ⟨names, entries, found⟩

theorem contents?_eq_none (h : d.isFolder base = false) : d.contents? base = none := by
  rw [← Bool.not_eq_true, isFolder_iff_contents] at h
  exact Option.eq_none_iff_forall_ne_some.2 fun cs read => h ⟨cs, read⟩

/-- Sound files have sound content, in which no name stands twice. -/
theorem contents?_sound (sound : d.root.Sound) (h : d.contents? base = some cs) :
    (Content.folder cs).Sound ∧ (cs.map (·.1)).Nodup := by
  obtain ⟨path, entries, found, rfl⟩ := contents?_eq_some_iff.1 h
  cases found?_sound sound found with | folder distinct names sounds =>
  exact ⟨sortOn_ofEntries_sound names fun e member _ counts =>
    ofNode?_sound sound (sounds e member) counts,
    Text.nodup_sortOn (Content.names_ofEntries_sublist.nodup distinct)⟩

theorem lookup_contents (sound : d.root.Sound)
    (found : d.found? base = some (path, .folder entries)) (h : d.contents? base = some cs) :
    cs.lookup name = some content ↔
      ∃ node, entries.lookup name = some node ∧
        Content.ofNode? d base name node = some content := by
  have distinct := (contents?_sound sound h).2
  obtain ⟨path', entries', found', rfl⟩ := contents?_eq_some_iff.1 h
  obtain ⟨rfl, rfl⟩ : path = path' ∧ entries = entries' := by simpa [found] using found'
  cases found?_sound sound found with | folder distinct' =>
  rw [lookup_eq_some_iff distinct, Text.mem_sortOn, Content.mem_ofEntries]
  exact exists_congr fun node => and_congr_left fun _ => (lookup_eq_some_iff distinct').symm

end Disk
end ProductTemplates
