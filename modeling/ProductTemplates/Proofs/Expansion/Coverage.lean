import ProductTemplates.Proofs.Expansion.Passes
import ProductTemplates.Proofs.Expansion.Placement

/-! Which ids expanded variables have. An id stands twice where a template that is spliced declares it
twice. One that is declared somewhere may be lost where an entry of a spliced template is held back
and is a reference, or has the id of a reference, which goes itself. Nothing else repeats or loses an
id. -/
namespace ProductTemplates.Expansion

variable {templates : List VariableTemplate} {spliced : List String} {s : Stage}
  {t t' : VariableTemplate} {entries result others kept later : List InstanceVariable}
  {u v w : InstanceVariable} {id : String} {ds : List VariableDefault}

/-- From a stage on, a template comes in the place of a reference, next to the other entries. -/
inductive Splices (templates : List VariableTemplate) :
    Stage → VariableTemplate → List InstanceVariable → Prop where
  | now {s : Stage} {kept later : List InstanceVariable} {id : String} {t : VariableTemplate} :
      firstReference? s.entries = some (kept, id, later) →
        template? templates s.spliced id = some t → Splices templates s t (kept ++ later)
  | later {s s' : Stage} {put : Option VariableTemplate} {t : VariableTemplate}
      {others : List InstanceVariable} : s.pass? templates = some (put, s') →
        Splices templates s' t others → Splices templates s t others

/-- From a stage on, an entry is in the list at some time. -/
def Occurs (templates : List VariableTemplate) (s : Stage) (v : InstanceVariable) : Prop :=
  v ∈ s.entries ∨ ∃ t others, Splices templates s t others ∧ v ∈ newEntries t others

/-- The entries of a template that are held back next to others and may be missed: references, and
variables with an id that only references have. -/
def forgone (t : VariableTemplate) (others : List InstanceVariable) : List InstanceVariable :=
  t.instanceVariables.filter fun v =>
    isDeclared others v && (v.isReference || !isDeclared (others.filter fun w => !w.isReference) v)

/-- All that the entries of a list stand for has its id in another list. -/
def Covered (templates : List VariableTemplate) (entries result : List InstanceVariable) : Prop :=
  ∀ v ∈ entries, ∀ w, StandsFor templates v w → ∀ id ∈ w.id, id ∈ ids result

theorem pass?_plain (plain : ∀ v ∈ entries, v.template = none) :
    Stage.pass? templates ⟨spliced, entries⟩ = none := by
  rw [Stage.pass?, firstReference?_eq_none_iff.2 plain, Option.map_none]

theorem pass?_drop (plain : ∀ v ∈ kept, v.template = none) (reference : v.template = some id)
    (unknown : template? templates spliced id = none) :
    Stage.pass? templates ⟨spliced, kept ++ v :: later⟩ = some (none, ⟨spliced, kept ++ later⟩) := by
  rw [Stage.pass?, firstReference?_append plain reference, Option.map_some]
  simp only [unknown]

theorem pass?_splice (plain : ∀ v ∈ kept, v.template = none) (reference : v.template = some id)
    (known : template? templates spliced id = some t) :
    Stage.pass? templates ⟨spliced, kept ++ v :: later⟩ =
      some (some t, ⟨id :: spliced, kept ++ (newEntries t (kept ++ later) ++ later)⟩) := by
  rw [Stage.pass?, firstReference?_append plain reference, Option.map_some]
  simp only [known, filter_isDeclared]

theorem append_of_firstReference? (h : firstReference? entries = some (kept, id, later)) :
    ∃ v, entries = kept ++ v :: later ∧ (∀ w ∈ kept, w.template = none) ∧ v.template = some id := by
  induction entries generalizing kept with
  | nil => simp [firstReference?] at h
  | cons v rest ih =>
    rw [firstReference?] at h
    split at h
    · next reference =>
      obtain ⟨rfl, rfl, rfl⟩ : [] = kept ∧ _ = id ∧ rest = later := by simpa using h
      exact ⟨v, rfl, by simp, reference⟩
    · next plain =>
      obtain ⟨⟨kept', id', later'⟩, found, same⟩ := Option.map_eq_some_iff.1 h
      obtain ⟨rfl, rfl, rfl⟩ : v :: kept' = kept ∧ id' = id ∧ later' = later := by simpa using same
      obtain ⟨w, rfl, before, reference⟩ := ih found
      exact ⟨w, rfl, List.forall_mem_cons.2 ⟨plain, before⟩, reference⟩

/-- Induction along the loop: a list without references, or one whose first reference goes, with or
without a template in its place. -/
theorem loop_induction (templates : List VariableTemplate) {motive : Stage → Prop}
    (ends : ∀ spliced entries, (∀ v ∈ entries, v.template = none) → motive ⟨spliced, entries⟩)
    (drops : ∀ spliced kept v later id, (∀ w ∈ kept, w.template = none) → v.template = some id →
      template? templates spliced id = none → motive ⟨spliced, kept ++ later⟩ →
        motive ⟨spliced, kept ++ v :: later⟩)
    (splices : ∀ spliced kept v later id t, (∀ w ∈ kept, w.template = none) →
      v.template = some id → template? templates spliced id = some t →
        motive ⟨id :: spliced, kept ++ (newEntries t (kept ++ later) ++ later)⟩ →
          motive ⟨spliced, kept ++ v :: later⟩)
    (s : Stage) : motive s := by
  obtain ⟨spliced, entries⟩ := s
  fun_induction expandReferences templates spliced entries with
  | case1 spliced entries unreferred => exact ends _ _ (firstReference?_eq_none_iff.1 unreferred)
  | case2 spliced entries kept id later cut unknown ih =>
    obtain ⟨v, rfl, plain, reference⟩ := append_of_firstReference? cut
    exact drops _ _ _ _ _ plain reference unknown ih
  | case3 spliced entries kept id later cut t known fresh ih =>
    obtain ⟨v, rfl, plain, reference⟩ := append_of_firstReference? cut
    exact splices _ _ _ _ _ _ plain reference known (filter_isDeclared t (kept ++ later) ▸ ih)

theorem not_splices_plain (plain : ∀ v ∈ entries, v.template = none) :
    ¬Splices templates ⟨spliced, entries⟩ t others := by
  intro splices
  cases splices with
  | now cut => simp [firstReference?_eq_none_iff.2 plain] at cut
  | later step => simp [pass?_plain plain] at step

theorem splices_drop_iff (plain : ∀ v ∈ kept, v.template = none) (reference : v.template = some id)
    (unknown : template? templates spliced id = none) :
    Splices templates ⟨spliced, kept ++ v :: later⟩ t others ↔
      Splices templates ⟨spliced, kept ++ later⟩ t others := by
  refine ⟨fun splices => ?_, .later (pass?_drop plain reference unknown)⟩
  cases splices with
  | now cut known =>
    obtain ⟨rfl, rfl, rfl⟩ : _ ∧ _ ∧ _ := by
      simpa using cut.symm.trans (firstReference?_append plain reference later)
    simp [unknown] at known
  | later step rest =>
    obtain ⟨rfl, rfl⟩ : _ ∧ _ := by simpa using step.symm.trans (pass?_drop plain reference unknown)
    exact rest

theorem splices_splice_iff (plain : ∀ v ∈ kept, v.template = none) (reference : v.template = some id)
    (known : template? templates spliced id = some t) :
    Splices templates ⟨spliced, kept ++ v :: later⟩ t' others ↔
      (t' = t ∧ others = kept ++ later) ∨
        Splices templates ⟨id :: spliced, kept ++ (newEntries t (kept ++ later) ++ later)⟩ t' others := by
  constructor
  · intro splices
    cases splices with
    | now cut known' =>
      obtain ⟨rfl, rfl, rfl⟩ : _ ∧ _ ∧ _ := by
        simpa using cut.symm.trans (firstReference?_append plain reference later)
      exact .inl ⟨Option.some.inj (known'.symm.trans known), rfl⟩
    | later step rest =>
      obtain ⟨rfl, rfl⟩ : _ ∧ _ := by simpa using step.symm.trans (pass?_splice plain reference known)
      exact .inr rest
  · rintro (⟨rfl, rfl⟩ | rest)
    · exact .now (firstReference?_append plain reference later) known
    · exact .later (pass?_splice plain reference known) rest

/-- The ids that are there from a stage on are those declared there and those that templates bring. -/
theorem mem_ids_expandReferences_iff (templates : List VariableTemplate) (s : Stage) :
    id ∈ ids (expandReferences templates s.spliced s.entries) ↔
      id ∈ declaredIds s.entries ∨
        ∃ t others, Splices templates s t others ∧ id ∈ declaredIds (newEntries t others) := by
  induction s using loop_induction templates with
  | ends spliced entries plain =>
    simp only [expandReferences_of_plain _ _ plain, not_splices_plain plain, false_and, exists_false,
      or_false, declaredIds_of_plain plain]
  | drops spliced kept v later id plain reference unknown ih =>
    simp only [expandReferences_drop plain reference unknown, splices_drop_iff plain reference unknown,
      declaredIds_reference (isReference_of_template reference)]
    exact ih
  | splices spliced kept v later id t plain reference known ih =>
    simp only [expandReferences_splice plain reference known, splices_splice_iff plain reference known,
      declaredIds_reference (isReference_of_template reference)]
    rw [ih]
    simp only [declaredIds_append, List.mem_append]
    constructor
    · rintro ((before | new | after) | ⟨t', others, splices, brought⟩)
      · exact .inl (.inl before)
      · exact .inr ⟨t, kept ++ later, .inl ⟨rfl, rfl⟩, new⟩
      · exact .inl (.inr after)
      · exact .inr ⟨t', others, .inr splices, brought⟩
    · rintro ((before | after) | ⟨t', others, ⟨rfl, rfl⟩ | splices, brought⟩)
      · exact .inl (.inl before)
      · exact .inl (.inr (.inr after))
      · exact .inl (.inr (.inl brought))
      · exact .inr ⟨t', others, splices, brought⟩

/-- No id that a template brings is declared already, so only what it brings itself can repeat one. -/
theorem nodup_splice_iff (t : VariableTemplate) (kept later : List InstanceVariable) :
    (declaredIds (kept ++ (newEntries t (kept ++ later) ++ later))).Nodup ↔
      (declaredIds (kept ++ later)).Nodup ∧ (declaredIds (newEntries t (kept ++ later))).Nodup := by
  have swapped : (declaredIds (kept ++ (newEntries t (kept ++ later) ++ later))).Perm
      (declaredIds (kept ++ later) ++ declaredIds (newEntries t (kept ++ later))) := by
    simp only [declaredIds_append, List.append_assoc]
    exact List.perm_append_comm.append_left _
  have apart : ∀ old ∈ declaredIds (kept ++ later),
      ∀ new ∈ declaredIds (newEntries t (kept ++ later)), old ≠ new := by
    rintro id old _ new rfl
    obtain ⟨v, member, -, own⟩ := mem_declaredIds_iff.1 new
    exact (mem_newEntries_iff.1 member).2 id own (ids_of_mem_declaredIds old)
  rw [swapped.nodup_iff, List.nodup_append, and_iff_left apart]

theorem nodup_ids_expandReferences_iff (templates : List VariableTemplate) (s : Stage) :
    (ids (expandReferences templates s.spliced s.entries)).Nodup ↔ (declaredIds s.entries).Nodup ∧
      ∀ t others, Splices templates s t others → (declaredIds (newEntries t others)).Nodup := by
  induction s using loop_induction templates with
  | ends spliced entries plain =>
    simp only [expandReferences_of_plain _ _ plain, not_splices_plain plain, declaredIds_of_plain plain,
      false_imp_iff, implies_true, and_true]
  | drops spliced kept v later id plain reference unknown ih =>
    simp only [expandReferences_drop plain reference unknown, splices_drop_iff plain reference unknown,
      declaredIds_reference (isReference_of_template reference)]
    exact ih
  | splices spliced kept v later id t plain reference known ih =>
    simp only [expandReferences_splice plain reference known, splices_splice_iff plain reference known,
      declaredIds_reference (isReference_of_template reference)]
    rw [ih, nodup_splice_iff, and_assoc]
    refine and_congr_right fun _ => ⟨?_, ?_⟩
    · rintro ⟨here, further⟩ t' others (⟨rfl, rfl⟩ | splices)
      · exact here
      · exact further t' others splices
    · intro all
      exact ⟨all t _ (.inl ⟨rfl, rfl⟩), fun t' others splices => all t' others (.inr splices)⟩

theorem occurs_drop_iff (plain : ∀ v ∈ kept, v.template = none) (reference : u.template = some id)
    (unknown : template? templates spliced id = none) :
    Occurs templates ⟨spliced, kept ++ u :: later⟩ v ↔
      v = u ∨ Occurs templates ⟨spliced, kept ++ later⟩ v := by
  simp only [Occurs, splices_drop_iff plain reference unknown, List.mem_append, List.mem_cons,
    or_left_comm, or_assoc]

theorem occurs_splice_iff (plain : ∀ v ∈ kept, v.template = none) (reference : u.template = some id)
    (known : template? templates spliced id = some t) :
    Occurs templates ⟨spliced, kept ++ u :: later⟩ v ↔
      v = u ∨ Occurs templates ⟨id :: spliced, kept ++ (newEntries t (kept ++ later) ++ later)⟩ v := by
  simp only [Occurs, splices_splice_iff plain reference known, List.mem_append, List.mem_cons]
  constructor
  · rintro ((before | rfl | after) | ⟨t', others, ⟨rfl, rfl⟩ | splices, brought⟩)
    · exact .inr (.inl (.inl before))
    · exact .inl rfl
    · exact .inr (.inl (.inr (.inr after)))
    · exact .inr (.inl (.inr (.inl brought)))
    · exact .inr (.inr ⟨t', others, splices, brought⟩)
  · rintro (rfl | (before | new | after) | ⟨t', others, splices, brought⟩)
    · exact .inl (.inr (.inl rfl))
    · exact .inl (.inl before)
    · exact .inr ⟨t, _, .inl ⟨rfl, rfl⟩, new⟩
    · exact .inl (.inr (.inr after))
    · exact .inr ⟨t', others, .inr splices, brought⟩

theorem splices_of_occurs (templates : List VariableTemplate) (s : Stage)
    (occurs : Occurs templates s v) (reference : v.template = some id)
    (found : templates.find? (·.id == id) = some t) :
    id ∈ s.spliced ∨ ∃ others, Splices templates s t others := by
  induction s using loop_induction templates with
  | ends spliced entries plain =>
    rcases occurs with listed | ⟨t', others, splices, -⟩
    · simp [plain v listed] at reference
    · exact absurd splices (not_splices_plain plain)
  | drops spliced kept first later id' plain reference' unknown ih =>
    simp only [splices_drop_iff plain reference' unknown]
    rcases (occurs_drop_iff plain reference' unknown).1 occurs with rfl | occurs
    · obtain rfl := Option.some.inj (reference.symm.trans reference')
      rcases template?_eq_none_iff.1 unknown with seen | missing
      · exact .inl seen
      · simp [found] at missing
    · exact ih occurs
  | splices spliced kept first later id' t' plain reference' known ih =>
    have now (same : id = id') : ∃ others,
        Splices templates ⟨spliced, kept ++ first :: later⟩ t others := by
      obtain rfl := same
      obtain rfl := Option.some.inj (found.symm.trans (template?_eq_some_iff.1 known).2.2)
      exact ⟨_, .now (firstReference?_append plain reference' later) known⟩
    rcases (occurs_splice_iff plain reference' known).1 occurs with rfl | occurs
    · exact .inr (now (Option.some.inj (reference.symm.trans reference')))
    · rcases ih occurs with seen | ⟨others, splices⟩
      · rcases List.mem_cons.1 seen with same | seen
        · exact .inr (now same)
        · exact .inl seen
      · exact .inr ⟨others, (splices_splice_iff plain reference' known).2 (.inr splices)⟩

theorem mem_ids_of_occurs (occurs : Occurs templates s v) (plain : v.template = none)
    (own : v.id = some id) : id ∈ ids (expandReferences templates s.spliced s.entries) := by
  rw [mem_ids_expandReferences_iff]
  rcases occurs with listed | ⟨t, others, splices, brought⟩
  · exact .inl (mem_declaredIds_iff.2 ⟨v, listed, plain, own⟩)
  · exact .inr ⟨t, others, splices, mem_declaredIds_iff.2 ⟨v, brought, plain, own⟩⟩

theorem isDeclared_iff : isDeclared entries v = true ↔ ∃ id, v.id = some id ∧ id ∈ ids entries := by
  cases known : v.id <;> simp [isDeclared, known, mem_ids_iff]

theorem mem_forgone_iff : u ∈ forgone t others ↔ u ∈ t.instanceVariables ∧
    ∃ id, u.id = some id ∧ id ∈ ids others ∧ (u.isReference = true ∨ id ∉ declaredIds others) := by
  rw [forgone, List.mem_filter, Bool.and_eq_true, Bool.or_eq_true, Bool.not_eq_true',
    ← Bool.not_eq_true, isDeclared_iff, isDeclared_iff, ← declaredIds]
  refine and_congr_right fun _ => ?_
  cases known : u.id <;> simp

/-- An entry of a spliced template occurs, is missed, or is a variable with a declared id. -/
theorem occurs_of_splices (splices : Splices templates s t others) (member : u ∈ t.instanceVariables) :
    Occurs templates s u ∨ u ∈ forgone t others ∨
      u.template = none ∧ ∃ id ∈ u.id, id ∈ declaredIds others := by
  by_cases held : ∃ id ∈ u.id, id ∈ ids others
  · obtain ⟨id, own, there⟩ := held
    refine .inr ?_
    cases reference : u.template with
    | some ref =>
      have isReference := isReference_of_template reference
      exact .inl (mem_forgone_iff.2 ⟨member, id, own, there, .inl isReference⟩)
    | none =>
      by_cases declared : id ∈ declaredIds others
      · exact .inr ⟨rfl, id, own, declared⟩
      · exact .inl (mem_forgone_iff.2 ⟨member, id, own, there, .inr declared⟩)
  · exact .inl (.inr ⟨t, others, splices, mem_newEntries_iff.2 ⟨member, by simpa using held⟩⟩)

theorem occurs_of_mem_others (splices : Splices templates s t others) (member : v ∈ others) :
    Occurs templates s v := by
  induction s using loop_induction templates with
  | ends spliced entries plain => exact absurd splices (not_splices_plain plain)
  | drops spliced kept first later id plain reference unknown ih =>
    exact (occurs_drop_iff plain reference unknown).2
      (.inr (ih ((splices_drop_iff plain reference unknown).1 splices)))
  | splices spliced kept first later id t' plain reference known ih =>
    rcases (splices_splice_iff plain reference known).1 splices with ⟨rfl, rfl⟩ | further
    · refine .inl ?_
      simp only [List.mem_append, List.mem_cons] at member ⊢
      tauto
    · exact (occurs_splice_iff plain reference known).2 (.inr (ih further))

theorem mem_ids_of_declared (splices : Splices templates s t others) (declared : id ∈ declaredIds others) :
    id ∈ ids (expandReferences templates s.spliced s.entries) := by
  obtain ⟨v, member, plain, own⟩ := mem_declaredIds_iff.1 declared
  exact mem_ids_of_occurs (occurs_of_mem_others splices member) plain own

/-- What a spliced template stands for, some entry of the list stands for. -/
theorem exists_standsFor_of_splices (splices : Splices templates s t others)
    (member : u ∈ t.instanceVariables) (standsFor : StandsFor templates u w) :
    ∃ v ∈ s.entries, StandsFor templates v w := by
  induction s using loop_induction templates with
  | ends spliced entries plain => exact absurd splices (not_splices_plain plain)
  | drops spliced kept first later id plain reference unknown ih =>
    obtain ⟨v, listed, stands⟩ := ih ((splices_drop_iff plain reference unknown).1 splices)
    refine ⟨v, ?_, stands⟩
    simp only [List.mem_append, List.mem_cons] at listed ⊢
    tauto
  | splices spliced kept first later id t' plain reference known ih =>
    have found := (template?_eq_some_iff.1 known).2.2
    rcases (splices_splice_iff plain reference known).1 splices with ⟨rfl, rfl⟩ | further
    · exact ⟨first, by simp, .within reference found member standsFor⟩
    · obtain ⟨v, listed, stands⟩ := ih further
      simp only [List.mem_append] at listed
      rcases listed with before | new | after
      · exact ⟨v, by simp [before], stands⟩
      · exact ⟨first, by simp, .within reference found (mem_newEntries_iff.1 new).1 stands⟩
      · exact ⟨v, by simp [after], stands⟩

/-- Nothing is lost exactly if what may be missed whenever a template is spliced is there anyway. -/
theorem covered_iff (templates : List VariableTemplate) (entries : List InstanceVariable) :
    Covered templates entries (expandReferences templates [] entries) ↔
      ∀ t others, Splices templates { entries } t others →
        Covered templates (forgone t others) (expandReferences templates [] entries) := by
  constructor
  · intro covered t others splices u missed w standsFor
    obtain ⟨v, listed, stands⟩ :=
      exists_standsFor_of_splices splices (mem_forgone_iff.1 missed).1 standsFor
    exact covered v listed w stands
  · intro missed v listed w standsFor
    -- all that is met on the way to `w` occurs, unless it is missed
    have met : Occurs templates { entries } v ∨ ∃ t others, Splices templates { entries } t others ∧
        v ∈ forgone t others := .inl (.inl listed)
    clear listed
    induction standsFor with
    | itself plain =>
      rcases met with occurs | ⟨t, others, splices, gone⟩
      · exact fun id own => mem_ids_of_occurs occurs plain own
      · exact missed t others splices _ gone _ (.itself plain)
    | @within v u w id t reference found member rest ih =>
      rcases met with occurs | ⟨t', others, splices, gone⟩
      · rcases splices_of_occurs templates _ occurs reference found with seen | ⟨others, splices⟩
        · exact absurd seen List.not_mem_nil
        · rcases occurs_of_splices splices member with occurs | gone | ⟨plain, own, isOwn, declared⟩
          · exact ih (.inl occurs)
          · exact ih (.inr ⟨t, others, splices, gone⟩)
          · cases rest with
            | itself =>
              intro id isId
              obtain rfl : own = id := Option.some.inj (isOwn.symm.trans isId)
              exact mem_ids_of_declared splices declared
            | within reference => simp [plain] at reference
      · exact missed t' others splices _ gone _ (.within reference found member rest)

theorem mem_templates_of_splices (splices : Splices templates s t others) : t ∈ templates := by
  induction splices with
  | now _ known => exact List.mem_of_find?_eq_some (template?_eq_some_iff.1 known).2.2
  | later _ _ ih => exact ih

theorem nodup_newEntries (distinct : (declaredIds t.instanceVariables).Nodup)
    (others : List InstanceVariable) : (declaredIds (newEntries t others)).Nodup :=
  ((List.filter_sublist.filter _).filterMap _).nodup distinct

theorem listed_of_occurs (occurs : Occurs templates s v) :
    v ∈ s.entries ++ templates.flatMap (·.instanceVariables) := by
  rcases occurs with listed | ⟨t, others, splices, brought⟩
  · exact List.mem_append_left _ listed
  · exact List.mem_append_right _ (List.mem_flatMap.2
      ⟨t, mem_templates_of_splices splices, (mem_newEntries_iff.1 brought).1⟩)

/-- Where no reference has an id, entries are held back for variables only, and none is missed. -/
theorem forgone_eq_nil
    (anonymous : ∀ v ∈ entries ++ templates.flatMap (·.instanceVariables),
      v.isReference = true → v.id = none)
    (splices : Splices templates { entries } t others) : forgone t others = [] := by
  refine List.eq_nil_iff_forall_not_mem.2 fun u gone => ?_
  obtain ⟨member, id, own, there, reference | undeclared⟩ := mem_forgone_iff.1 gone
  · have listed := List.mem_append_right entries
      (List.mem_flatMap.2 ⟨t, mem_templates_of_splices splices, member⟩)
    simp [anonymous u listed reference] at own
  · obtain ⟨v, other, same⟩ := mem_ids_iff.1 there
    have listed := listed_of_occurs (occurs_of_mem_others splices other)
    cases reference : v.template with
    | none => exact undeclared (mem_declaredIds_iff.2 ⟨v, other, reference, same⟩)
    | some ref => simp [anonymous v listed (isReference_of_template reference)] at same

theorem ids_expandVariables (entries : List InstanceVariable) (templates : List VariableTemplate)
    (ds : List VariableDefault) :
    ids (expandVariables entries templates ds) = ids (expandReferences templates [] entries) := by
  have same := map_foldl_applyDefault (f := (·.id)) (fun _ _ => rfl)
    (expandReferences templates [] entries) ds
  have through (vs : List InstanceVariable) : ids vs = (vs.map (·.id)).filterMap fun id => id := by
    rw [List.filterMap_map]
    rfl
  rw [through, through, expandVariables, same]

/-- When expanding a list without repeated ids repeats or loses one. No id stands twice exactly if no
template, whenever it is spliced, brings one twice. All ids are there that are declared by the list
or by a template that its references lead to exactly if those are that references held back, or
variables held back for a reference, stand for. So it is if no template declares an id twice and no
reference has one. -/
theorem expandVariables_ids (entries : List InstanceVariable) (templates : List VariableTemplate)
    (ds : List VariableDefault) (distinct : (ids entries).Nodup) :
    ((ids (expandVariables entries templates ds)).Nodup ↔
      ∀ t others, Splices templates { entries } t others →
        (declaredIds (newEntries t others)).Nodup) ∧
    (Covered templates entries (expandVariables entries templates ds) ↔
      ∀ t others, Splices templates { entries } t others →
        Covered templates (forgone t others) (expandVariables entries templates ds)) ∧
    ((∀ t ∈ templates, (declaredIds t.instanceVariables).Nodup) →
      (ids (expandVariables entries templates ds)).Nodup) ∧
    ((∀ v ∈ entries ++ templates.flatMap (·.instanceVariables), v.isReference = true → v.id = none) →
      Covered templates entries (expandVariables entries templates ds)) := by
  have once : (declaredIds entries).Nodup := (List.filter_sublist.filterMap _).nodup distinct
  have nodup := nodup_ids_expandReferences_iff templates { entries }
  simp only [Covered, ids_expandVariables]
  refine ⟨?repeated, covered_iff templates entries, fun each => ?unrepeated, fun anonymous => ?kept⟩
  case repeated => exact nodup.trans (and_iff_right once)
  case unrepeated =>
    refine nodup.2 ⟨once, fun t others splices => ?_⟩
    exact nodup_newEntries (each t (mem_templates_of_splices splices)) others
  case kept =>
    refine (covered_iff templates entries).2 fun t others splices => ?_
    rw [forgone_eq_nil anonymous splices]
    exact fun v member => absurd member List.not_mem_nil

/-- A template that declares a port twice, and a zone. -/
def doubled : VariableTemplate where
  id := "common"
  instanceVariables := [.declare "port" "80", .declare "port" "81", .declare "zone" "south"]

/-- A reference to it, and one with the id of the zone that leads nowhere. -/
def awaitingZone : List InstanceVariable :=
  [.reference "common", { id := some "zone", template := some "gone" }]

/-- The port is there twice, and the zone is lost. -/
theorem expandVariables_ids_doubled :
    (ids awaitingZone).Nodup ∧
    ids (expandVariables awaitingZone [doubled] []) = ["port", "port"] ∧
    (¬∀ t others, Splices [doubled] { entries := awaitingZone } t others →
      (declaredIds (newEntries t others)).Nodup) ∧
    ¬∀ t others, Splices [doubled] { entries := awaitingZone } t others →
      Covered [doubled] (forgone t others) (expandVariables awaitingZone [doubled] []) := by
  have distinct : (ids awaitingZone).Nodup := by decide
  have left : ids (expandVariables awaitingZone [doubled] []) = ["port", "port"] := by cbv
  obtain ⟨repeated, lost, -, -⟩ := expandVariables_ids awaitingZone [doubled] [] distinct
  refine ⟨distinct, left, fun each => ?_, fun missed => ?_⟩
  · have once := repeated.2 each
    rw [left] at once
    contradiction
  · have zone : StandsFor [doubled] (.reference "common") (.declare "zone" "south") :=
      .within rfl rfl (by simp [doubled]) (.itself rfl)
    have there := lost.2 missed _ List.mem_cons_self _ zone "zone" rfl
    rw [left] at there
    contradiction

end ProductTemplates.Expansion
