import ProductTemplates.Proofs.Descriptor.Carrying
import ProductTemplates.Proofs.Document.Reading

/-! What is known of descriptors that were read from documents: the values that they carry along were
read as such, and no attribute of a parameter has the name of a field. -/
namespace ProductTemplates

open Document RecordField Value

theorem Application.keeps : ∀ f ∈ fields, f.Keeps (Carries IsRead) := by
  have control : (of "processControl" Node.dictionary fun x (a : Application) =>
      { a with processControl := x }).Keeps (Carries IsRead) :=
    keeps_of fun _ _ _ read _ => isRead_of_dictionary read
  simp only [fields, List.forall_mem_cons, List.not_mem_nil, false_implies, implies_true, and_true]
  refine ⟨?_, ?_, ?_, ?_, ?_, control, ?_, ?_⟩
  all_goals exact keeps_other fun _ _ known => known

theorem Application.carries_of_read {n : Node} {a : Application} (h : Application.read n = .ok a) :
    a.Carries IsRead := record_keeps keeps (by simp [Carries, Dictionary.empty]) h

theorem ApplicationTemplate.carries_of_read {n : Node} {t : ApplicationTemplate}
    (h : ApplicationTemplate.read n = .ok t) : t.app.Carries IsRead := by
  obtain ⟨⟨_, others⟩, -, h⟩ := bind_eq_ok_iff.1 h
  obtain ⟨p, read, same⟩ := bind_eq_ok_iff.1 h
  obtain rfl := Except.ok.inj same
  exact readSettled_keeps Application.keeps read (by simp [Application.Carries, Dictionary.empty])

theorem Group.carries_of_read {n : Node} {g : Group} (h : Group.read n = .ok g) :
    g.Carries IsRead := by
  have applications : (of "applications" (Node.list Application.read) fun x (g : Group) =>
      { g with applications := x }).Keeps (Carries IsRead) :=
    keeps_of fun _ _ _ read _ => forall_mem_of_list (fun _ _ h => Application.carries_of_read h) read
  refine record_keeps ?_ (by simp [Carries]) h
  simp only [fields, List.forall_mem_cons, List.not_mem_nil, false_implies, implies_true, and_true,
    keeps_needed]
  refine ⟨?_, ?_, ?_, applications⟩
  all_goals exact keeps_other fun _ _ known => known

theorem InstanceTemplate.carries_of_read {n : Node} {t : InstanceTemplate}
    (h : InstanceTemplate.read n = .ok t) : t.Carries IsRead := by
  have groups : (of "groups" (Node.list Group.read) fun x (t : InstanceTemplate) =>
      { t with groups := x }).Keeps (Carries IsRead) :=
    keeps_of fun _ _ _ read _ => forall_mem_of_list (fun _ _ h => Group.carries_of_read h) read
  refine record_keeps ?_ (by simp [Carries]) h
  simp only [fields, List.forall_mem_cons, List.not_mem_nil, false_implies, implies_true, and_true,
    keeps_needed]
  refine ⟨?_, ?_, ?_, ?_, ?_, groups⟩
  all_goals exact keeps_other fun _ _ known => known

theorem ParameterDefinition.carries_of_read {n : Node} {p : ParameterDefinition}
    (h : ParameterDefinition.read n = .ok p) : p.Carries IsRead ∧ p.IsParted := by
  obtain ⟨⟨_, others⟩, own, h⟩ := bind_eq_ok_iff.1 h
  obtain ⟨attributes, read, same⟩ := bind_eq_ok_iff.1 h
  obtain rfl := Except.ok.inj same
  have each : ∀ e ∈ attributes, e.2.IsRead ∧ find? fields e.1 = none := by
    refine forall_mem_of_mapM (fun entry member pair here => ?_) read
    obtain ⟨v, value, same⟩ := bind_eq_ok_iff.1 here
    obtain rfl := Except.ok.inj same
    exact ⟨isRead_of_value value, unknown_of_partly own entry member⟩
  exact ⟨Dictionary.forall_mem_ofList fun e member => (each e member).1,
    Dictionary.forall_mem_ofList fun e member => (each e member).2⟩

theorem ParameterTemplate.carries_of_read {n : Node} {t : ParameterTemplate}
    (h : ParameterTemplate.read n = .ok t) : t.Carries IsRead ∧ t.IsParted := by
  let Known (ps : List ParameterDefinition) := ∀ p ∈ ps, p.Carries IsRead ∧ p.IsParted
  have parameters : (of "parameters" (Node.list ParameterDefinition.read)
      fun x (t : ParameterTemplate) => { t with parameters := x }).Keeps fun t => Known t.parameters :=
    keeps_of fun _ _ _ read _ =>
      forall_mem_of_list (fun _ _ h => ParameterDefinition.carries_of_read h) read
  have known : Known t.parameters := by
    refine @record_keeps _ n _ (fun t => Known t.parameters) _ _ ?_ (by simp [Known]) h
    simp only [fields, List.forall_mem_cons, List.not_mem_nil, false_implies, implies_true, and_true,
      keeps_needed]
    refine ⟨?_, ?_, ?_, parameters⟩
    all_goals exact keeps_other fun _ _ known => known
  exact ⟨fun p member => (known p member).1, fun p member => (known p member).2⟩

end ProductTemplates
