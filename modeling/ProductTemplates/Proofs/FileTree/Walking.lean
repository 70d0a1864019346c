import ProductTemplates.FileTree.Disk
import ProductTemplates.Proofs.FileTree

/-! Walking on from the end of a path: a name joined to a path leads to the entry of that name in
the folder where the path leads. -/
namespace ProductTemplates

namespace Path

variable {base name : String}

theorem isAbsolute_iff : isAbsolute base = true ↔ ['/'] <+: base.toList := by
  simp [isAbsolute]

theorem endsWith_slash_iff : base.endsWith "/" = true ↔ ['/'] <:+ base.toList := by
  simp [← String.endsWith_toSlice]

theorem split_ne_nil (cs : List Char) : split '/' cs ≠ [] := by
  cases cs with
  | nil => simp [split]
  | cons c rest =>
    rw [split]
    split
    · exact List.cons_ne_nil _ _
    · split <;> exact List.cons_ne_nil _ _

theorem split_append (xs ys : List Char) :
    split '/' (xs ++ '/' :: ys) = split '/' xs ++ split '/' ys := by
  induction xs with
  | nil => simp [split]
  | cons c rest ih =>
    by_cases slash : c = '/'
    · simp [split, slash, ih]
    · rw [List.cons_append, split, if_neg slash, ih, split, if_neg slash]
      obtain ⟨piece, more, pieces⟩ := List.exists_cons_of_ne_nil (split_ne_nil rest)
      rw [pieces]
      rfl

theorem split_of_not_mem {cs : List Char} (h : '/' ∉ cs) : split '/' cs = [cs] := by
  induction cs with
  | nil => rfl
  | cons c rest ih =>
    rw [List.mem_cons, not_or] at h
    rw [split, if_neg (Ne.symm h.1), ih h.2]

theorem not_isAbsolute (clean : IsSegment name) : isAbsolute name = false := by
  rw [← Bool.not_eq_true, isAbsolute_iff]
  exact fun slash => clean.no_slash (slash.subset List.mem_cons_self)

theorem toList_join (clean : IsSegment name) (given : base ≠ "") :
    ∃ front, (base.toList = front ∨ base.toList = front ++ ['/']) ∧
      (join base name).toList = front ++ '/' :: name.toList := by
  rw [join, not_isAbsolute clean, Bool.false_or, if_neg (by simpa using given)]
  split
  · next closed =>
    obtain ⟨front, closed⟩ := endsWith_slash_iff.1 closed
    exact ⟨front, .inr closed.symm, by simp [← closed]⟩
  · exact ⟨base.toList, .inl rfl, by simp⟩

theorem not_endsWith_slash (clean : IsSegment name) : name.endsWith "/" = false := by
  rw [← Bool.not_eq_true, endsWith_slash_iff]
  exact fun slash => clean.no_slash (slash.subset List.mem_cons_self)

theorem join_empty (name : String) : join "" name = name := by
  rw [join, if_pos (by simp)]

theorem join_ne_empty (clean : IsSegment name) : join base name ≠ "" := by
  by_cases given : base = ""
  · rw [given, join_empty]
    exact clean.nonempty
  · obtain ⟨front, -, letters⟩ := toList_join clean given
    intro empty
    simp [empty] at letters

theorem isAbsolute_join (clean : IsSegment name) :
    isAbsolute (join base name) = isAbsolute base := by
  by_cases given : base = ""
  · rw [given, join_empty, not_isAbsolute clean]
    decide +kernel
  obtain ⟨front, before, after⟩ := toList_join clean given
  have nonempty : base.toList ≠ [] := by simpa using given
  rw [Bool.eq_iff_iff, isAbsolute_iff, isAbsolute_iff, after]
  rcases before with same | same <;> cases front <;> simp_all

/-- The steps of a path with a name joined: those of the path, less a final dot, and the name. -/
theorem steps_join (clean : IsSegment name) : steps (join base name) = names base ++ [name] := by
  have here : name.toList ≠ [] := by simpa using clean.nonempty
  by_cases given : base = ""
  · rw [given, join_empty, steps, not_endsWith_slash clean, names, split_of_not_mem clean.no_slash]
    simp [names, split, here]
  obtain ⟨front, before, after⟩ := toList_join clean given
  have unslashed : (join base name).endsWith "/" = false := by
    rw [← Bool.not_eq_true, endsWith_slash_iff, after]
    rintro ⟨start, same⟩
    obtain ⟨init, last, letters⟩ :=
      (List.eq_nil_or_concat name.toList).resolve_left (by simpa using clean.nonempty)
    rw [List.concat_eq_append] at letters
    rw [letters, ← List.cons_append, ← List.append_assoc] at same
    obtain rfl := List.singleton_inj.1 (List.append_inj' same rfl).2
    exact clean.no_slash (letters ▸ List.mem_append_right _ List.mem_cons_self)
  have pieces : split '/' (join base name).toList = split '/' front ++ [name.toList] := by
    rw [after, split_append, split_of_not_mem clean.no_slash]
  have outer : (split '/' base.toList).filter (· ≠ []) = (split '/' front).filter (· ≠ []) := by
    rcases before with same | same
    · rw [same]
    · rw [same, split_append, List.filter_append]
      simp [split]
  rw [steps, unslashed, names, names, pieces, List.filter_append, ← outer, List.map_append]
  simp [here]

end Path

namespace Disk

variable {root node : FileTree} {follow : Bool} {links : Nat} {step target : String}
  {spot path steps rest : List String} {entries : List (String × FileTree)}

structure IsEntryStep (step : String) : Prop where
  not_here : step ≠ "."
  not_up : step ≠ ".."
  isName : isName step = true

theorem walk_here (folder : root.get? spot = some (.folder entries)) :
    walk root follow links spot ("." :: rest) = walk root follow links spot rest := by
  rw [walk, folder]
  rfl

theorem walk_up (folder : root.get? spot = some (.folder entries)) :
    walk root follow links spot (".." :: rest) = walk root follow links spot.dropLast rest := by
  rw [walk, folder]
  rfl

theorem walk_entry (folder : root.get? spot = some (.folder entries)) (plain : IsEntryStep step)
    (entry : entries.lookup step = some node) (own : ∀ target, node ≠ .link target) :
    walk root follow links spot (step :: rest) =
      walk root follow links (spot ++ [step]) rest := by
  rw [walk, folder]
  simp only [plain.not_here, plain.not_up, plain.isName, entry, Bool.not_true, Bool.false_eq_true,
    if_false]

theorem walk_link (folder : root.get? spot = some (.folder entries)) (plain : IsEntryStep step)
    (entry : entries.lookup step = some (.link target)) (goes : ¬ (rest = [] ∧ (!follow) = true)) :
    walk root follow (links + 1) spot (step :: rest) =
      walk root follow links (if Path.isAbsolute target then [] else spot)
        (Path.steps target ++ rest) := by
  rw [walk, folder]
  simp only [plain.not_here, plain.not_up, plain.isName, entry, Bool.not_true, Bool.false_eq_true,
    if_false, goes]

theorem walk_free (folder : root.get? spot = some (.folder entries)) (plain : IsEntryStep step)
    (free : entries.lookup step = none) :
    walk root follow links spot (step :: rest) =
      if rest = [] then some (.vacant spot step) else none := by
  rw [walk, folder]
  simp [plain.not_here, plain.not_up, plain.isName, free]

/-- Steps lead on only from a folder. -/
theorem folder_of_walk {place : Place}
    (h : walk root follow links spot (step :: rest) = some place) :
    ∃ entries, root.get? spot = some (.folder entries) := by
  rw [walk] at h
  split at h
  · next entries folder => exact ⟨entries, folder⟩
  · contradiction

/-- A path that leads to something can be walked on from there, with the links that are left. -/
theorem walk_append (found : walk root true links spot steps = some (.found path node)) :
    ∃ left, root.get? path = some node ∧
      ∀ more, walk root true links spot (steps ++ more) = walk root true left path more := by
  fun_induction walk root true links spot steps with
  | case1 links spot =>
    obtain ⟨_, there, same⟩ := Option.map_eq_some_iff.1 found
    obtain ⟨rfl, rfl⟩ := Place.found.inj same
    exact ⟨links, there, fun _ => rfl⟩
  | case2 links spot rest entries folder ih =>
    obtain ⟨left, there, on⟩ := ih found
    exact ⟨left, there, fun more => (walk_here folder).trans (on more)⟩
  | case3 links spot rest entries folder _ ih =>
    obtain ⟨left, there, on⟩ := ih found
    exact ⟨left, there, fun more => (walk_up folder).trans (on more)⟩
  | case9 spot step rest entries folder here up name target entry _ links ih =>
    -- the target's steps stand in front of the rest, and so in front of what is appended
    obtain ⟨left, there, on⟩ := ih found
    refine ⟨left, there, fun more => ?_⟩
    rw [List.cons_append, walk_link folder ⟨here, up, by simpa using name⟩ entry (by simp), ← on,
      List.append_assoc]
    rfl
  | case10 links spot step rest entries folder here up name node own entry ih =>
    obtain ⟨left, there, on⟩ := ih found
    refine ⟨left, there, fun more => ?_⟩
    rw [List.cons_append, walk_entry folder ⟨here, up, by simpa using name⟩ entry own, on]
  | case7 _ _ _ _ _ _ _ _ _ _ _ ends => simp at ends
  | case4 | case5 | case6 | case8 | case11 => simp at found

/-- A path with more steps behind it leads nowhere, or to where the walk goes on. -/
theorem walk_split (root : FileTree) (links : Nat) (spot steps : List String) :
    (∀ follow step rest, walk root follow links spot (steps ++ step :: rest) = none) ∨
      ∃ path left, ∀ follow step rest, walk root follow links spot (steps ++ step :: rest) =
        walk root follow left path (step :: rest) := by
  fun_induction walk root true links spot steps with
  | case1 links spot => exact .inr ⟨spot, links, fun _ _ _ => rfl⟩
  | case2 links spot rest entries folder ih =>
    simpa only [List.cons_append, walk_here folder] using ih
  | case3 links spot rest entries folder _ ih =>
    simpa only [List.cons_append, walk_up folder] using ih
  | case4 links spot step rest entries folder here up name =>
    left
    intro follow step rest
    simp [walk, folder, here, up, Bool.not_eq_true' _ ▸ name]
  | case5 links spot step entries folder here up name free
  | case6 links spot step rest entries folder here up name free =>
    left
    intro follow next more
    rw [List.cons_append, walk_free folder ⟨here, up, by simpa using name⟩ free, if_neg (by simp)]
  | case7 _ _ _ _ _ _ _ _ _ _ _ ends => simp at ends
  | case8 spot step rest entries folder here up name target entry =>
    left
    intro follow next more
    simp [walk, folder, here, up, entry]
  | case9 spot step rest entries folder here up name target entry _ links ih =>
    have on (follow : Bool) (next : String) (more : List String) :
        walk root follow (links + 1) spot (step :: rest ++ next :: more) =
          walk root follow links (if Path.isAbsolute target then [] else spot)
            (Path.steps target ++ rest ++ next :: more) := by
      rw [List.cons_append, walk_link folder ⟨here, up, by simpa using name⟩ entry (by simp),
        List.append_assoc]
    simpa only [on, dite_eq_ite] using ih
  | case10 links spot step rest entries folder here up name node own entry ih =>
    simpa only [List.cons_append, walk_entry folder ⟨here, up, by simpa using name⟩ entry own] using ih
  | case11 links spot step rest other =>
    left
    intro follow next more
    simp [walk]

theorem walk_dot (steps : List String) :
    walk root true links spot (steps ++ "." :: step :: rest) =
      walk root true links spot (steps ++ step :: rest) := by
  fun_induction walk root true links spot steps with
  | case1 links spot =>
    cases there : root.get? spot with
    | none => simp [walk, there]
    | some node =>
      cases node with
      | folder => exact walk_here there
      | file | link | pipe => simp [walk, there]
  | case2 _ _ _ _ folder ih =>
    rw [List.cons_append, List.cons_append, walk_here folder, walk_here folder, ih]
  | case3 _ _ _ _ folder _ ih =>
    rw [List.cons_append, List.cons_append, walk_up folder, walk_up folder, ih]
  | case4 _ _ _ _ _ folder here up name =>
    simp [walk, folder, here, up, Bool.not_eq_true' _ ▸ name]
  | case5 _ _ _ _ folder here up name free | case6 _ _ _ _ _ folder here up name free =>
    rw [List.cons_append, List.cons_append, walk_free folder ⟨here, up, by simpa using name⟩ free,
      walk_free folder ⟨here, up, by simpa using name⟩ free, if_neg (by simp), if_neg (by simp)]
  | case7 _ _ _ _ _ _ _ _ _ _ _ ends => simp at ends
  | case8 _ _ _ _ folder here up name _ entry =>
    simp [walk, folder, here, up, entry]
  | case9 _ _ _ _ folder here up name _ entry _ _ ih =>
    rw [List.cons_append, List.cons_append,
      walk_link folder ⟨here, up, by simpa using name⟩ entry (by simp),
      walk_link folder ⟨here, up, by simpa using name⟩ entry (by simp), ← List.append_assoc,
      ← List.append_assoc]
    exact ih
  | case10 _ _ _ _ _ folder here up name _ own entry ih =>
    rw [List.cons_append, List.cons_append,
      walk_entry folder ⟨here, up, by simpa using name⟩ entry own,
      walk_entry folder ⟨here, up, by simpa using name⟩ entry own, ih]
  | case11 _ _ _ _ other => simp [walk]

/-- A path leads to the same place if a link at its end is not followed, or else to that link. -/
theorem walk_own {place : Place} (h : walk root true links spot steps = some place) :
    walk root false links spot steps = some place ∨
      ∃ path target, walk root false links spot steps = some (.found path (.link target)) := by
  fun_induction walk root true links spot steps with
  | case1 => exact .inl (by rwa [walk])
  | case2 _ _ _ _ folder ih =>
    rw [walk_here folder]
    exact ih h
  | case3 _ _ _ _ folder _ ih =>
    rw [walk_up folder]
    exact ih h
  | case4 | case6 | case8 | case11 => contradiction
  | case5 _ _ _ _ folder here up name free =>
    rw [walk_free folder ⟨here, up, by simpa using name⟩ free]
    exact .inl h
  | case7 _ _ _ _ _ _ _ _ _ _ _ ends => simp at ends
  | case9 spot step rest _ folder here up name target entry _ _ ih =>
    cases rest with
    | nil =>
      refine .inr ⟨spot ++ [step], target, ?_⟩
      rw [walk, folder]
      simp [here, up, name, entry]
    | cons next more =>
      rw [walk_link folder ⟨here, up, by simpa using name⟩ entry (by simp)]
      exact ih h
  | case10 _ _ _ _ _ folder here up name _ own entry ih =>
    rw [walk_entry folder ⟨here, up, by simpa using name⟩ entry own]
    exact ih h

section Joining

variable {d : Disk} {base name : String} {place : Place} {bytes : Bytes}

def origin (d : Disk) (path : String) : List String := if Path.isAbsolute path then [] else d.here

theorem place?_join_eq (clean : IsSegment name) : d.place? (Path.join base name) =
    walk d.root true maxLinks (d.origin base) (Path.names base ++ [name]) := by
  rw [place?, if_neg (Path.join_ne_empty clean), Path.isAbsolute_join clean, Path.steps_join clean]
  rfl

theorem ownPlace?_join_eq (clean : IsSegment name) : d.ownPlace? (Path.join base name) =
    walk d.root false maxLinks (d.origin base) (Path.names base ++ [name]) := by
  rw [ownPlace?, if_neg (Path.join_ne_empty clean), Path.isAbsolute_join clean,
    Path.steps_join clean]
  rfl

theorem found?_eq_some_iff : d.found? base = some (path, node) ↔
    d.place? base = some (.found path node) := by
  unfold found?
  split
  · next there => simp [there]
  · next other => simpa using fun there => other _ _ there

theorem get?_of_found? (found : d.found? base = some (path, node)) :
    d.root.get? path = some node := by
  have place := found?_eq_some_iff.1 found
  unfold place? at place
  split at place
  · contradiction
  · obtain ⟨-, there, -⟩ := walk_append place
    exact there

theorem isFolder_iff : d.isFolder base = true ↔
    ∃ path entries, d.found? base = some (path, .folder entries) := by
  unfold isFolder
  cases d.found? base with
  | none => simp
  | some there =>
    obtain ⟨path, node⟩ := there
    cases node <;> simp [FileTree.isFolder]

theorem read?_eq_some_iff :
    d.read? base = some bytes ↔ ∃ path, d.found? base = some (path, .file bytes) := by
  unfold read?
  split
  · next there => simp [there]
  · next other => simpa using fun path there => other path bytes there

/-- A name alone leads to an entry of the folder in which relative paths begin. -/
theorem found?_name (clean : IsSegment name) (plain : IsEntryStep name)
    (folder : d.root.get? d.here = some (.folder entries)) (entry : entries.lookup name = some node)
    (own : ∀ target, node ≠ .link target) : d.found? name = some (d.here ++ [name], node) := by
  have place := @place?_join_eq d "" name clean
  have begins : d.origin "" = d.here := by
    rw [origin, if_neg]
    decide +kernel
  rw [Path.join_empty, begins, show Path.names "" = [] by rfl, List.nil_append,
    walk_entry folder plain entry own, walk, FileTree.get?_append folder, FileTree.get?, FileTree.child?,
    entry] at place
  exact found?_eq_some_iff.2 place

theorem dot_isSegment : IsSegment "." := ⟨by decide, by decide⟩

/-- Names are joined to a path in the folder to which a dot leads. -/
theorem places_join (found : d.found? (Path.join base ".") = some (path, .folder entries)) :
    d.root.get? path = some (.folder entries) ∧ ∃ left, ∀ name, IsSegment name →
      d.place? (Path.join base name) = walk d.root true left path [name] ∧
        d.ownPlace? (Path.join base name) = walk d.root false left path [name] := by
  have place := found?_eq_some_iff.1 found
  rw [place?_join_eq dot_isSegment] at place
  rcases walk_split d.root maxLinks (d.origin base) (Path.names base) with halted | ⟨spot, left, on⟩
  · rw [halted] at place
    contradiction
  · rw [on] at place
    obtain ⟨es, folder⟩ := folder_of_walk place
    rw [walk_here folder, walk, folder] at place
    obtain ⟨rfl, same⟩ := Place.found.inj (Option.some.inj place)
    refine ⟨folder.trans (congrArg some same), left, fun name clean => ?_⟩
    rw [place?_join_eq clean, ownPlace?_join_eq clean, on, on]
    exact ⟨rfl, rfl⟩

theorem exists_folder_of_join (clean : IsSegment name)
    (found : d.place? (Path.join base name) = some place) :
    ∃ path entries, d.found? (Path.join base ".") = some (path, .folder entries) := by
  rw [place?_join_eq clean] at found
  rcases walk_split d.root maxLinks (d.origin base) (Path.names base) with halted | ⟨spot, left, on⟩
  · rw [halted] at found
    contradiction
  · rw [on] at found
    obtain ⟨es, folder⟩ := folder_of_walk found
    refine ⟨spot, es, ?_⟩
    rw [found?_eq_some_iff, place?_join_eq dot_isSegment, on, walk_here folder, walk, folder]
    rfl

/-- The place of a name joined to a path is found by one step from where the path leads. -/
theorem place?_join (found : d.found? base = some (path, node)) (clean : IsSegment name) :
    ∃ left, d.root.get? path = some node ∧
      d.place? (Path.join base name) = walk d.root true left path [name] := by
  have place := found?_eq_some_iff.1 found
  unfold place? at place ⊢
  by_cases given : base = ""
  · simp [given] at place
  rw [if_neg given] at place
  obtain ⟨left, there, on⟩ := walk_append place
  refine ⟨left, there, ?_⟩
  rw [if_neg (Path.join_ne_empty clean), Path.isAbsolute_join clean, Path.steps_join clean, ← on,
    Path.steps]
  by_cases closed : base.endsWith "/" = true
  · rw [if_pos closed, List.append_assoc, List.cons_append, List.nil_append, walk_dot]
  · rw [if_neg closed, List.append_nil]

theorem found?_join_entry (found : d.found? base = some (path, .folder entries))
    (clean : IsFileName name) (plain : IsEntryStep name) (entry : entries.lookup name = some node)
    (own : ∀ target, node ≠ .link target) :
    d.found? (Path.join base name) = some (path ++ [name], node) := by
  obtain ⟨left, there, place⟩ := place?_join found clean.isSegment
  rw [found?_eq_some_iff, place, walk_entry there plain entry own, walk,
    FileTree.get?_append there, FileTree.get?, FileTree.child?, entry]
  rfl

theorem found?_join_free (found : d.found? base = some (path, .folder entries))
    (clean : IsFileName name) (plain : IsEntryStep name) (free : entries.lookup name = none) :
    d.found? (Path.join base name) = none := by
  obtain ⟨left, there, place⟩ := place?_join found clean.isSegment
  rw [found?, place, walk_free there plain free, if_pos rfl]

end Joining

end Disk
end ProductTemplates
