import ProductTemplates.Proofs.FileTree.Walking

/-! Files that change while folders and links stay: what was reached through the same folders and
links before is reached as before. -/
namespace ProductTemplates

namespace FileTree

variable {t root root' root'' node : FileTree} {names path rest : List String} {name other : String}
  {es : List (String × FileTree)} {f : Option FileTree → Option FileTree}

theorem lookup_cons_entry {key : String} : ((key, node) :: es).lookup name =
    if name = key then some node else es.lookup name := by
  by_cases same : name = key
  · simp [same]
  · rw [List.lookup_cons, beq_false_of_ne same, if_neg same]

theorem mem_alterEntry {e : String × FileTree} (h : e ∈ alterEntry name f es) :
    e ∈ es ∨ ∃ old, f old = some e.2 := by
  have new {old : Option FileTree} (member : e ∈ ((f old).map (name, ·)).toList) :
      ∃ old, f old = some e.2 := by
    obtain ⟨node, made, rfl⟩ := Option.map_eq_some_iff.1 (Option.mem_toList.1 member)
    exact ⟨old, made⟩
  induction es with
  | nil => exact .inr (new h)
  | cons first rest ih =>
    obtain ⟨key, node⟩ := first
    rw [alterEntry] at h
    split at h
    · rcases List.mem_append.1 h with here | later
      · exact .inr (new here)
      · exact .inl (List.mem_cons_of_mem _ later)
    · rcases List.mem_cons.1 h with rfl | later
      · exact .inl List.mem_cons_self
      · exact (ih later).imp_left (List.mem_cons_of_mem _)

theorem lookup_alterEntry_other (differ : other ≠ name) :
    (alterEntry name f es).lookup other = es.lookup other := by
  have skip (x : Option FileTree) (rest : List (String × FileTree)) :
      ((x.map (name, ·)).toList ++ rest).lookup other = rest.lookup other := by
    cases x with
    | none => rfl
    | some node => exact lookup_cons_entry.trans (if_neg differ)
  induction es with
  | nil => simpa [alterEntry] using skip (f none) []
  | cons first rest ih =>
    obtain ⟨key, node⟩ := first
    rw [alterEntry]
    split
    · next same =>
      subst same
      rw [skip, lookup_cons_entry, if_neg differ]
    · rw [lookup_cons_entry, lookup_cons_entry, ih]

theorem lookup_alterEntry_put : (alterEntry name (fun _ => some node) es).lookup name = some node := by
  induction es with
  | nil => simp [alterEntry]
  | cons first rest ih =>
    obtain ⟨key, old⟩ := first
    rw [alterEntry]
    split
    · simp
    · next differ => rw [lookup_cons_entry, if_neg (Ne.symm differ), ih]

theorem alterEntry_free (free : es.lookup name = none) :
    alterEntry name (fun _ => some node) es = es ++ [(name, node)] := by
  induction es with
  | nil => rfl
  | cons first rest ih =>
    obtain ⟨key, old⟩ := first
    rw [lookup_cons_entry] at free
    split at free
    · contradiction
    · next differ => rw [alterEntry, if_neg (Ne.symm differ), ih free, List.cons_append]

theorem alterEntry_last (free : es.lookup name = none) :
    alterEntry name (fun _ => none) (es ++ [(name, node)]) = es := by
  induction es with
  | nil => simp [alterEntry]
  | cons first rest ih =>
    obtain ⟨key, old⟩ := first
    rw [lookup_cons_entry] at free
    split at free
    · contradiction
    · next differ => rw [List.cons_append, alterEntry, if_neg (Ne.symm differ), ih free]

/-- Where an entry was added and taken away all is as before. -/
theorem alterEntry_back (free : es.lookup name = none) :
    alterEntry name (fun _ => none) (alterEntry name (fun _ => some node) es) = es := by
  rw [alterEntry_free free, alterEntry_last free]

theorem lookup_map_entry {g : FileTree → FileTree} :
    (es.map fun (key, t) => (key, if key = name then g t else t)).lookup other =
      (es.lookup other).map fun t => if other = name then g t else t := by
  induction es with
  | nil => rfl
  | cons first rest ih =>
    obtain ⟨key, t⟩ := first
    rw [List.map_cons, lookup_cons_entry, lookup_cons_entry, ih]
    split
    · next same => rw [same, Option.map_some]
    · rfl

/-- Whether two trees are the same, or both are folders. -/
def Alike (t other : FileTree) : Prop := t = other ∨ t.isFolder = true ∧ other.isFolder = true

theorem Alike.symm (h : t.Alike node) : node.Alike t := h.imp Eq.symm And.symm

theorem rel_alike (o : Option FileTree) : Option.Rel Alike o o := by
  cases o with
  | none => exact .none
  | some t => exact .some (.inl rfl)

theorem alter_step {step : String} (more : rest ≠ []) :
    (folder es).alter f (step :: rest) =
      folder (es.map fun (key, t) => (key, if key = step then t.alter f rest else t)) := by
  cases rest with
  | nil => contradiction
  | cons => rfl

theorem get?_alter (there : t.get? names = some (folder es)) :
    (t.alter f (names ++ [name])).get? names = some (folder (alterEntry name f es)) := by
  induction names generalizing t with
  | nil =>
    obtain rfl := Option.some.inj there
    rfl
  | cons step rest ih =>
    obtain ⟨child, here, below⟩ := Option.bind_eq_some_iff.1 there
    cases t with
    | folder entries =>
      have entry : entries.lookup step = some child := here
      rw [List.cons_append, alter_step (by simp), get?, child?, lookup_map_entry, entry,
        Option.map_some, if_pos rfl, Option.bind_some, ih below]
    | file | link | pipe => simp [child?] at here

/-- All else stays as it was, but for the entries of folders. -/
theorem get?_alter_other (there : t.get? names = some (folder es))
    (apart : ¬ names ++ [name] <+: path) :
    Option.Rel Alike (t.get? path) ((t.alter f (names ++ [name])).get? path) := by
  induction names generalizing t path with
  | nil =>
    obtain rfl := Option.some.inj there
    cases path with
    | nil => exact .some (.inr ⟨rfl, rfl⟩)
    | cons step more =>
      have differ : step ≠ name := by
        rintro rfl
        exact apart (List.prefix_append [step] more)
      rw [show ((folder es).alter f ([] ++ [name])).get? (step :: more) = (folder es).get? (step :: more)
        from congrArg (·.bind (get? more)) (lookup_alterEntry_other differ)]
      exact rel_alike _
  | cons first names ih =>
    obtain ⟨child, here, below⟩ := Option.bind_eq_some_iff.1 there
    cases t with
    | file | link | pipe => simp [child?] at here
    | folder entries =>
      have entry : entries.lookup first = some child := here
      rw [List.cons_append, alter_step (by simp)]
      cases path with
      | nil => exact .some (.inr ⟨rfl, rfl⟩)
      | cons step more =>
        rw [get?, get?, child?, child?, lookup_map_entry]
        by_cases same : step = first
        · subst same
          rw [entry, Option.map_some, if_pos rfl, Option.bind_some, Option.bind_some]
          exact ih below fun inside => apart (List.cons_prefix_cons.2 ⟨rfl, inside⟩)
        · simp only [same, if_false, Option.map_id']
          exact rel_alike _

theorem get?_alter_kept (there : t.get? names = some (folder es))
    (apart : ¬ names ++ [name] <+: path) (found : t.get? path = some node) :
    ∃ node', (t.alter f (names ++ [name])).get? path = some node' ∧ node.Alike node' := by
  have alike := @get?_alter_other _ _ _ _ _ f there apart
  rw [found] at alike
  cases after : (t.alter f (names ++ [name])).get? path with
  | none =>
    rw [after] at alike
    cases alike
  | some node' =>
    rw [after] at alike
    cases alike with
    | some alike => exact ⟨node', rfl, alike⟩

theorem get?_alter_old (there : t.get? names = some (folder es))
    (apart : ¬ names ++ [name] <+: path)
    (found : (t.alter f (names ++ [name])).get? path = some node) :
    ∃ node', t.get? path = some node' ∧ node.Alike node' := by
  have alike := @get?_alter_other _ _ _ _ _ f there apart
  rw [found] at alike
  cases before : t.get? path with
  | none =>
    rw [before] at alike
    cases alike
  | some node' =>
    rw [before] at alike
    cases alike with
    | some alike => exact ⟨node', rfl, alike.symm⟩

theorem Alike.trans {third : FileTree} (h : t.Alike node) (h' : node.Alike third) : t.Alike third := by
  rcases h with rfl | ⟨first, middle⟩
  · exact h'
  · rcases h' with rfl | ⟨-, last⟩
    · exact .inr ⟨first, middle⟩
    · exact .inr ⟨first, last⟩

theorem Alike.folder_eq {entries : List (String × FileTree)} (h : (folder entries).Alike t) :
    ∃ entries', t = folder entries' := by
  rcases h with rfl | ⟨-, other⟩
  · exact ⟨_, rfl⟩
  · cases t with
    | folder entries' => exact ⟨entries', rfl⟩
    | file | link | pipe => contradiction

theorem Alike.link_eq {target : String} (h : (link target).Alike t) : t = link target := by
  rcases h with rfl | ⟨other, -⟩
  · rfl
  · contradiction

theorem Alike.file_eq {bytes : Bytes} (h : (file bytes).Alike t) : t = file bytes := by
  rcases h with rfl | ⟨other, -⟩
  · rfl
  · contradiction

/-- Whether all that stands in one tree stands in the other, where folders may hold more. -/
def Grows (t other : FileTree) : Prop :=
  ∀ path node, t.get? path = some node → ∃ node', other.get? path = some node' ∧ node.Alike node'

/-- Whether all stays but files. -/
def Keeps (t other : FileTree) : Prop :=
  ∀ path node, (∀ bytes, node ≠ .file bytes) → t.get? path = some node →
    ∃ node', other.get? path = some node' ∧ node.Alike node'

theorem Grows.refl (t : FileTree) : t.Grows t := fun _ node found => ⟨node, found, .inl rfl⟩

theorem Grows.trans {third : FileTree} (h : t.Grows root) (h' : root.Grows third) :
    t.Grows third := by
  intro path node found
  obtain ⟨node', found', alike⟩ := h path node found
  obtain ⟨node'', found'', alike'⟩ := h' path node' found'
  exact ⟨node'', found'', alike.trans alike'⟩

theorem Grows.keeps (h : t.Grows root) : t.Keeps root := fun path node _ => h path node

theorem Keeps.trans {third : FileTree} (h : t.Keeps root) (h' : root.Keeps third) :
    t.Keeps third := by
  intro path node other found
  obtain ⟨node', found', alike⟩ := h path node other found
  have other' : ∀ bytes, node' ≠ .file bytes := by
    rintro bytes rfl
    rcases alike with rfl | ⟨-, impossible⟩
    · exact other bytes rfl
    · contradiction
  obtain ⟨node'', found'', alike'⟩ := h' path node' other' found'
  exact ⟨node'', found'', alike.trans alike'⟩

theorem Keeps.folder {entries : List (String × FileTree)} (h : t.Keeps root)
    (found : t.get? path = some (folder entries)) :
    ∃ entries', root.get? path = some (folder entries') := by
  obtain ⟨node', found', alike⟩ := h path _ (by simp) found
  obtain ⟨entries', rfl⟩ := alike.folder_eq
  exact ⟨entries', found'⟩

theorem Keeps.link {target : String} (h : t.Keeps root) (found : t.get? path = some (link target)) :
    root.get? path = some (link target) := by
  obtain ⟨node', found', alike⟩ := h path _ (by simp) found
  rwa [alike.link_eq] at found'

theorem get?_append_eq_some_iff : t.get? (names ++ rest) = some node ↔
    ∃ mid, t.get? names = some mid ∧ mid.get? rest = some node := by
  induction names generalizing t with
  | nil => simp [get?]
  | cons name more ih =>
    rw [List.cons_append, get?, get?, Option.bind_eq_some_iff]
    simp only [ih, Option.bind_eq_some_iff]
    constructor
    · rintro ⟨child, here, mid, below, last⟩
      exact ⟨mid, ⟨child, here, below⟩, last⟩
    · rintro ⟨mid, ⟨child, here, below⟩, last⟩
      exact ⟨child, here, mid, below, last⟩

theorem get?_entry (there : t.get? names = some (folder es)) :
    t.get? (names ++ [name]) = es.lookup name := by
  rw [get?_append there, get?, child?]
  cases es.lookup name <;> rfl

theorem grows_alter (there : t.get? names = some (folder es)) (free : es.lookup name = none) :
    t.Grows (t.alter f (names ++ [name])) := by
  intro path node found
  refine get?_alter_kept there ?_ found
  rintro ⟨more, rfl⟩
  obtain ⟨mid, here, -⟩ := get?_append_eq_some_iff.1 found
  rw [get?_entry there, free] at here
  contradiction

theorem keeps_alter (there : t.get? names = some (folder es))
    (file : ∀ old, es.lookup name = some old → ∃ bytes, old = .file bytes) :
    t.Keeps (t.alter f (names ++ [name])) := by
  intro path node other found
  refine get?_alter_kept there ?_ found
  rintro ⟨more, rfl⟩
  obtain ⟨mid, here, below⟩ := get?_append_eq_some_iff.1 found
  rw [get?_entry there] at here
  obtain ⟨bytes, rfl⟩ := file mid here
  cases more with
  | nil => exact other bytes (Option.some.inj below).symm
  | cons => contradiction

/-- Before an entry became a file, or free, all else stood there that stands there now. -/
theorem alter_keeps (there : t.get? names = some (folder es))
    (file : ∀ new, (alterEntry name f es).lookup name = some new → ∃ bytes, new = .file bytes) :
    (t.alter f (names ++ [name])).Keeps t := by
  intro path node other found
  refine get?_alter_old there ?_ found
  rintro ⟨more, rfl⟩
  obtain ⟨mid, here, below⟩ := get?_append_eq_some_iff.1 found
  rw [get?_entry (get?_alter there)] at here
  obtain ⟨bytes, rfl⟩ := file mid here
  cases more with
  | nil => exact other bytes (Option.some.inj below).symm
  | cons => contradiction

end FileTree

def Place.path : Place → List String
  | found path _ => path
  | vacant folder name => folder ++ [name]

namespace Disk

open FileTree

variable {root root' node : FileTree} {follow follow' : Bool} {links : Nat} {spot steps : List String}
  {place : Place}

/-- In a tree that keeps its folders and links, a path leads to where it led before, whatever stands
there now. -/
theorem walk_kept (keeps : root.Keeps root') (more : follow = true → follow' = true)
    (h : walk root follow links spot steps = some place)
    (there : root'.get? place.path = some node) (own : ∀ target, node ≠ .link target) :
    walk root' follow' links spot steps = some (.found place.path node) := by
  fun_induction walk root follow links spot steps with
  | case1 links spot =>
    obtain ⟨_, -, rfl⟩ := Option.map_eq_some_iff.1 h
    rw [walk, show root'.get? spot = some node from there]
    rfl
  | case2 links spot rest entries folder ih =>
    obtain ⟨_, folder'⟩ := keeps.folder folder
    rw [walk_here folder', ih h]
  | case3 links spot rest entries folder _ ih =>
    obtain ⟨_, folder'⟩ := keeps.folder folder
    rw [walk_up folder', ih h]
  | case4 => contradiction
  | case5 links spot step entries folder here up name free =>
    obtain rfl := Option.some.inj h
    obtain ⟨_, folder'⟩ := keeps.folder folder
    have entry := (get?_entry folder').symm.trans there
    rw [walk_entry folder' ⟨here, up, by simpa using name⟩ entry own, walk,
      show root'.get? (spot ++ [step]) = some node from there]
    rfl
  | case6 => contradiction
  | case7 links spot step rest entries folder here up name target entry ends =>
    obtain rfl := Option.some.inj h
    have kept := keeps.link ((get?_entry folder).trans entry)
    exact absurd (Option.some.inj (there.symm.trans kept)) (own target)
  | case8 => contradiction
  | case9 spot step rest entries folder here up name target entry goes links ih =>
    obtain ⟨_, folder'⟩ := keeps.folder folder
    have kept := keeps.link ((get?_entry folder).trans entry)
    rw [get?_entry folder'] at kept
    have goes' : ¬ (rest = [] ∧ (!follow') = true) := by
      rintro ⟨last, off⟩
      refine goes ⟨last, ?_⟩
      cases follow with
      | false => rfl
      | true => simp [more rfl] at off
    rw [walk_link folder' ⟨here, up, by simpa using name⟩ kept goes']
    exact ih h
  | case10 links spot step rest entries folder here up name old own' entry ih =>
    obtain ⟨_, folder'⟩ := keeps.folder folder
    have kept : ∃ new, root'.get? (spot ++ [step]) = some new ∧ ∀ target, new ≠ .link target := by
      cases rest with
      | nil =>
        rw [walk] at h
        obtain ⟨_, -, rfl⟩ := Option.map_eq_some_iff.1 h
        exact ⟨node, there, own⟩
      | cons =>
        obtain ⟨_, inner⟩ := folder_of_walk h
        obtain ⟨es', inner'⟩ := keeps.folder inner
        exact ⟨_, inner', by simp⟩
    obtain ⟨new, entry', own''⟩ := kept
    rw [get?_entry folder'] at entry'
    rw [walk_entry folder' ⟨here, up, by simpa using name⟩ entry' own'', ih h]
  | case11 => contradiction

theorem path_of_step {es : List (String × FileTree)} {step : String}
    (folder : root.get? spot = some (.folder es)) (plain : IsEntryStep step)
    (h : walk root false links spot [step] = some place) : place.path = spot ++ [step] := by
  cases entry : es.lookup step with
  | none =>
    rw [walk_free folder plain entry] at h
    obtain rfl := Option.some.inj h
    rfl
  | some node =>
    by_cases link : ∃ target, node = .link target
    · obtain ⟨target, rfl⟩ := link
      rw [walk, folder] at h
      obtain rfl : Place.found (spot ++ [step]) (.link target) = place := by
        simpa [plain.not_here, plain.not_up, plain.isName, entry] using h
      rfl
    · rw [walk_entry folder plain entry fun target same => link ⟨target, same⟩, walk] at h
      obtain ⟨_, -, rfl⟩ := Option.map_eq_some_iff.1 h
      rfl

/-- What is found at the end of a path in a tree that another one keeps is where the path itself leads
in the other, if a file stands there. -/
theorem path_of_walk {path : List String} {bytes bytes' : Bytes} (keeps : root.Keeps root')
    (h : walk root true links spot steps = some (.found path (.file bytes)))
    (own : walk root' false links spot steps = some place)
    (there : root.get? place.path = some (.file bytes')) : place.path = path := by
  fun_induction walk root true links spot steps with
  | case1 links spot =>
    obtain ⟨_, -, same⟩ := Option.map_eq_some_iff.1 h
    obtain ⟨rfl, -⟩ := Place.found.inj same
    rw [walk] at own
    obtain ⟨_, -, rfl⟩ := Option.map_eq_some_iff.1 own
    rfl
  | case2 links spot rest entries folder ih =>
    obtain ⟨_, folder'⟩ := keeps.folder folder
    rw [walk_here folder'] at own
    exact ih h own
  | case3 links spot rest entries folder _ ih =>
    obtain ⟨_, folder'⟩ := keeps.folder folder
    rw [walk_up folder'] at own
    exact ih h own
  | case4 | case6 | case8 | case11 => contradiction
  | case5 => cases h
  | case7 _ _ _ _ _ _ _ _ _ _ _ ends => simp at ends
  | case9 spot step rest entries folder here up name target entry goes links ih =>
    obtain ⟨_, folder'⟩ := keeps.folder folder
    have link := (get?_entry folder).trans entry
    have kept := keeps.link link
    rw [get?_entry folder'] at kept
    have plain : IsEntryStep step := ⟨here, up, by simpa using name⟩
    cases rest with
    | nil =>
      rw [path_of_step folder' plain own, link] at there
      cases there
    | cons next more =>
      rw [walk_link folder' plain kept (by simp)] at own
      exact ih h own
  | case10 links spot step rest entries folder here up name old own' entry ih =>
    obtain ⟨_, folder'⟩ := keeps.folder folder
    have plain : IsEntryStep step := ⟨here, up, by simpa using name⟩
    cases rest with
    | nil =>
      rw [walk] at h
      obtain ⟨_, -, same⟩ := Option.map_eq_some_iff.1 h
      obtain ⟨rfl, -⟩ := Place.found.inj same
      exact path_of_step folder' plain own
    | cons next more =>
      obtain ⟨_, inner⟩ := folder_of_walk h
      obtain ⟨es', inner'⟩ := keeps.folder inner
      rw [get?_entry folder'] at inner'
      rw [walk_entry folder' plain inner' (by simp)] at own
      exact ih h own

end Disk
end ProductTemplates
