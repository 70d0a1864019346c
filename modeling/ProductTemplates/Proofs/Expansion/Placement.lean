import Mathlib.Data.List.Forall2
import Mathlib.Data.List.Induction
import ProductTemplates.Proofs.Expansion.Preorder

/-! Where the entries of expanded variables come from. Each variable of the list stays in its place,
each reference gives way to variables of templates, and no template brings an id that the list
declares itself. Defaults then set values, and nothing else. -/
namespace ProductTemplates.Expansion

variable {templates : List VariableTemplate} {own : List String} {v w : InstanceVariable}
  {entries later kept vs : List InstanceVariable} {blocks : List (List InstanceVariable)}
  {ds : List VariableDefault} {d : VariableDefault} {id : String}

def ids (entries : List InstanceVariable) : List String := entries.filterMap (·.id)

/-- The ids that a list declares: those of its entries that are no references. -/
def declaredIds (entries : List InstanceVariable) : List String :=
  ids (entries.filter fun v => !v.isReference)

/-- A variable stands for itself, a reference for what the entries of its template stand for. -/
inductive StandsFor (templates : List VariableTemplate) : InstanceVariable → InstanceVariable → Prop where
  | itself {v : InstanceVariable} : v.template = none → StandsFor templates v v
  | within {v u w : InstanceVariable} {id : String} {t : VariableTemplate} :
      v.template = some id → templates.find? (·.id == id) = some t → u ∈ t.instanceVariables →
        StandsFor templates u w → StandsFor templates v w

/-- What comes of an entry, `own` being ids that no template may bring. -/
inductive Becomes (templates : List VariableTemplate) (own : List String) :
    InstanceVariable → List InstanceVariable → Prop where
  | kept {v : InstanceVariable} : v.template = none → Becomes templates own v [v]
  | replaced {v : InstanceVariable} {block : List InstanceVariable} : v.isReference = true →
      (∀ w ∈ block, StandsFor templates v w ∧ ∀ id ∈ w.id, id ∉ own) → Becomes templates own v block

theorem mem_ids_iff : id ∈ ids vs ↔ ∃ v ∈ vs, v.id = some id := List.mem_filterMap

theorem mem_declaredIds_iff : id ∈ declaredIds vs ↔ ∃ v ∈ vs, v.template = none ∧ v.id = some id := by
  simp only [declaredIds, mem_ids_iff, List.mem_filter, InstanceVariable.isReference,
    Bool.not_eq_true', Option.isSome_eq_false_iff, Option.isNone_iff_eq_none, and_assoc]

theorem ids_append (vs ws : List InstanceVariable) : ids (vs ++ ws) = ids vs ++ ids ws :=
  List.filterMap_append

theorem declaredIds_append (vs ws : List InstanceVariable) :
    declaredIds (vs ++ ws) = declaredIds vs ++ declaredIds ws := by
  rw [declaredIds, List.filter_append, ids_append, declaredIds, declaredIds]

theorem isReference_of_template (reference : v.template = some id) : v.isReference = true := by
  simp [InstanceVariable.isReference, reference]

theorem declaredIds_reference (reference : v.isReference = true) (kept rest : List InstanceVariable) :
    declaredIds (kept ++ v :: rest) = declaredIds (kept ++ rest) := by
  rw [declaredIds, List.filter_append, List.filter_cons_of_neg (by simp [reference]),
    ← List.filter_append, declaredIds]

theorem declaredIds_of_plain (plain : ∀ v ∈ vs, v.template = none) : declaredIds vs = ids vs := by
  rw [declaredIds, List.filter_eq_self.2]
  intro v member
  rw [InstanceVariable.isReference, plain v member, Option.isSome_none, Bool.not_false]

theorem ids_of_mem_declaredIds (h : id ∈ declaredIds vs) : id ∈ ids vs := by
  obtain ⟨v, member, -, own⟩ := mem_declaredIds_iff.1 h
  exact mem_ids_iff.2 ⟨v, member, own⟩

theorem mem_newEntries_iff {t : VariableTemplate} {others : List InstanceVariable} :
    v ∈ newEntries t others ↔ v ∈ t.instanceVariables ∧ ∀ id ∈ v.id, id ∉ ids others := by
  rw [newEntries, List.mem_filter, decide_eq_true_iff]
  refine and_congr_right fun _ => ?_
  cases known : v.id with
  | none => simp
  | some id => simp [mem_ids_iff]

theorem mem_flatten_blocks (each : List.Forall₂ (Becomes templates own) entries blocks)
    (member : w ∈ blocks.flatten) : ∃ v ∈ entries, ∃ block, Becomes templates own v block ∧ w ∈ block := by
  induction each with
  | nil => simp at member
  | @cons v block _ _ became _ ih =>
    rcases List.mem_append.1 member with here | there
    · exact ⟨v, List.mem_cons_self, block, became, here⟩
    · obtain ⟨u, listed, found⟩ := ih there
      exact ⟨u, List.mem_cons_of_mem _ listed, found⟩

theorem sublist_flatten_blocks (each : List.Forall₂ (Becomes templates own) entries blocks) :
    (entries.filter fun v => !v.isReference).Sublist blocks.flatten := by
  induction each with
  | nil => exact .slnil
  | @cons v block _ _ became _ ih =>
    cases became with
    | kept plain =>
      rw [List.filter_cons_of_pos (by simp [InstanceVariable.isReference, plain])]
      exact ih.cons_cons v
    | replaced reference =>
      rw [List.filter_cons_of_neg (by simp [reference])]
      exact ih.trans (List.sublist_append_right _ _)

/-- What the new entries of a template become is what the reference to it becomes. -/
theorem becomes_of_template {t : VariableTemplate} {others : List InstanceVariable}
    (reference : v.template = some id) (found : templates.find? (·.id == id) = some t)
    (there : ∀ id ∈ own, id ∈ declaredIds others)
    (each : List.Forall₂ (Becomes templates own) (newEntries t others) blocks) :
    Becomes templates own v blocks.flatten := by
  refine .replaced (isReference_of_template reference) fun w member => ?_
  obtain ⟨u, listed, block, became, inBlock⟩ := mem_flatten_blocks each member
  obtain ⟨inTemplate, fresh⟩ := mem_newEntries_iff.1 listed
  cases became with
  | kept plain =>
    obtain rfl := List.mem_singleton.1 inBlock
    exact ⟨.within reference found inTemplate (.itself plain),
      fun id isId old => fresh id isId (ids_of_mem_declaredIds (there id old))⟩
  | replaced _ all =>
    obtain ⟨standsFor, foreign⟩ := all w inBlock
    exact ⟨.within reference found inTemplate standsFor, foreign⟩

theorem exists_blocks_of_drop {result : List InstanceVariable} (reference : v.isReference = true)
    (h : ∃ blocks, List.Forall₂ (Becomes templates own) entries blocks ∧
      result = kept ++ blocks.flatten) :
    ∃ blocks, List.Forall₂ (Becomes templates own) (v :: entries) blocks ∧
      result = kept ++ blocks.flatten := by
  obtain ⟨blocks, each, same⟩ := h
  exact ⟨[] :: blocks, .cons (.replaced reference (by simp)) each, same⟩

/-- A walk keeps one block after another. Its invariant is that the list as it stands declares all
ids that no template may bring. -/
theorem walk_kept (templates : List VariableTemplate) (entries later : List InstanceVariable)
    (s : Walked) (there : ∀ id ∈ own, id ∈ declaredIds (s.kept ++ (entries ++ later))) :
    ∃ blocks, List.Forall₂ (Becomes templates own) entries blocks ∧
      (walk templates entries later s).1.kept = s.kept ++ blocks.flatten := by
  fun_induction walk templates entries later s with
  | case1 later s => exact ⟨[], .nil, by simp⟩
  | case2 v rest later s plain after ih =>
    obtain ⟨blocks, each, same⟩ := ih (by simpa using there)
    exact ⟨[v] :: blocks, .cons (.kept plain) each, by simpa [after] using same⟩
  | case3 v rest later s id reference seen ih =>
    have isReference := isReference_of_template reference
    rw [List.cons_append, declaredIds_reference isReference] at there
    exact exists_blocks_of_drop isReference (ih there)
  | case4 v rest later s id reference fresh unknown ih =>
    have isReference := isReference_of_template reference
    rw [List.cons_append, declaredIds_reference isReference] at there
    exact exists_blocks_of_drop isReference (ih there)
  | case5 v rest later s id reference fresh t found inner after throughTemplate throughRest _ =>
    have isReference := isReference_of_template reference
    rw [List.cons_append, declaredIds_reference isReference] at there
    obtain ⟨within, eachWithin, sameWithin⟩ := throughTemplate fun id old => by
      have := there id old
      simp only [declaredIds_append, List.mem_append] at this ⊢
      tauto
    obtain ⟨blocks, each, same⟩ := throughRest fun id old => by
      have := there id old
      rw [sameWithin]
      simp only [declaredIds_append, List.mem_append] at this ⊢
      tauto
    refine ⟨within.flatten :: blocks,
      .cons (becomes_of_template reference found there eachWithin) each, ?_⟩
    rw [same, sameWithin, List.flatten_cons, List.append_assoc]

/-- The last of the defaults for an id. -/
def lastDefault? (ds : List VariableDefault) (id : String) : Option VariableDefault :=
  ds.reverse.find? (·.id == id)

/-- The variable with the value of the last default for its id, if there is one. -/
def settle (ds : List VariableDefault) (v : InstanceVariable) : InstanceVariable :=
  match v.id.bind (lastDefault? ds) with
  | some d => { v with value := d.value }
  | none => v

theorem getElem?_applyDefault (vs : List InstanceVariable) (d : VariableDefault) (i : Nat) :
    (applyDefault vs d)[i]? = vs[i]?.map fun v =>
      if v.id = some d.id ∧ v.id ∉ (vs.take i).map (·.id) then { v with value := d.value } else v := by
  induction vs generalizing i with
  | nil => simp [applyDefault]
  | cons v rest ih =>
    by_cases same : v.id = some d.id
    · rw [applyDefault_cons_same same]
      cases i with
      | zero => simp [same]
      | succ i =>
        have after (w : InstanceVariable) :
            ¬(w.id = some d.id ∧ w.id ∉ ((v :: rest).take (i + 1)).map (·.id)) := by
          rintro ⟨again, new⟩
          simp [again, same] at new
        simp only [List.getElem?_cons_succ, if_neg (after _), Option.map_id']
    · rw [applyDefault_cons_other same]
      cases i with
      | zero => simp [same]
      | succ i =>
        rw [List.getElem?_cons_succ, List.getElem?_cons_succ, ih]
        congr 1
        funext w
        by_cases meant : w.id = some d.id
        · simp [meant, Ne.symm same]
        · simp [meant]

theorem lastDefault?_concat (ds : List VariableDefault) (d : VariableDefault) (id : String) :
    lastDefault? (ds ++ [d]) id = if d.id = id then some d else lastDefault? ds id := by
  by_cases same : d.id = id <;> simp [lastDefault?, same]

theorem settle_nil (v : InstanceVariable) : settle [] v = v := by
  cases known : v.id <;> simp [settle, known, lastDefault?]

theorem id_settle (ds : List VariableDefault) (v : InstanceVariable) : (settle ds v).id = v.id := by
  unfold settle
  split <;> rfl

theorem settle_concat (ds : List VariableDefault) (d : VariableDefault) (v : InstanceVariable) :
    settle (ds ++ [d]) v =
      if v.id = some d.id then { settle ds v with value := d.value } else settle ds v := by
  by_cases meant : v.id = some d.id
  · have last : v.id.bind (lastDefault? (ds ++ [d])) = some d := by
      rw [meant, Option.bind_some, lastDefault?_concat, if_pos rfl]
    rw [if_pos meant]
    simp only [settle, last]
    split <;> rfl
  · have same : v.id.bind (lastDefault? (ds ++ [d])) = v.id.bind (lastDefault? ds) := by
      cases known : v.id with
      | none => rfl
      | some id =>
        have other : d.id ≠ id := by simpa [known, eq_comm] using meant
        rw [Option.bind_some, Option.bind_some, lastDefault?_concat, if_neg other]
    rw [if_neg meant, settle, same, settle]

/-- Of the variables with one id the first takes the value of the last default. -/
theorem foldl_applyDefault_eq_mapIdx (ds : List VariableDefault) (vs : List InstanceVariable) :
    ds.foldl applyDefault vs =
      vs.mapIdx fun i v => if v.id ∈ (vs.take i).map (·.id) then v else settle ds v := by
  apply List.ext_getElem?
  intro i
  rw [List.getElem?_mapIdx]
  induction ds using List.reverseRecOn with
  | nil => simp only [List.foldl_nil, settle_nil, ite_self, Option.map_id']
  | append_singleton ds d ih =>
    have before : ((ds.foldl applyDefault vs).take i).map (·.id) = (vs.take i).map (·.id) := by
      rw [List.map_take, map_foldl_applyDefault (fun _ _ => rfl), List.map_take]
    rw [List.foldl_append, List.foldl_cons, List.foldl_nil, getElem?_applyDefault, before, ih,
      Option.map_map]
    congr 1
    funext v
    rw [Function.comp_apply, settle_concat]
    by_cases earlier : v.id ∈ (vs.take i).map (·.id)
    · simp only [if_pos earlier]
      exact if_neg fun first => first.2 earlier
    · simp only [earlier, if_false, id_settle, not_false_eq_true, and_true]

/-- Entries of the list itself always win. Variables stay in their order, each reference in its place
gives way to variables of templates with ids that the list does not declare. With defaults, the
first variable of an id has the value of the last default for it, all else is as without them, and
setting them again changes nothing. -/
theorem expandVariables_keeps_own (entries : List InstanceVariable) (templates : List VariableTemplate)
    (ds : List VariableDefault) :
    (∃ blocks, List.Forall₂ (Becomes templates (declaredIds entries)) entries blocks ∧
      expandVariables entries templates [] = blocks.flatten) ∧
    (entries.filter fun v => !v.isReference).Sublist (expandVariables entries templates []) ∧
    expandVariables entries templates ds = (expandVariables entries templates []).mapIdx (fun i v =>
      if v.id ∈ ((expandVariables entries templates []).take i).map (·.id) then v else settle ds v) ∧
    ds.foldl applyDefault (expandVariables entries templates ds) =
      expandVariables entries templates ds := by
  have start : ∀ id ∈ declaredIds entries, id ∈ declaredIds (({} : Walked).kept ++ (entries ++ [])) := by
    simp
  obtain ⟨blocks, each, same⟩ := walk_kept templates entries [] {} start
  have inPlace : expandVariables entries templates [] = blocks.flatten := by
    rw [expandVariables_eq_preorder, preorder, same, List.nil_append]
  refine ⟨⟨blocks, each, inPlace⟩, ?own, ?settled, ?again⟩
  case own => exact inPlace ▸ sublist_flatten_blocks each
  case settled => exact foldl_applyDefault_eq_mapIdx ds _
  case again => exact foldl_foldl_applyDefault (fun d member => ⟨d, member, rfl⟩) _

end ProductTemplates.Expansion
