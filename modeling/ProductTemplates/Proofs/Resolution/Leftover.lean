import ProductTemplates.Proofs.Resolution.Merging
import ProductTemplates.Proofs.Resolution.Precedence
import ProductTemplates.Proofs.Resolution.Refilling

/-! Tokens that are left in the texts of what came about. An id that is asked for is seen by the
caller, unless it is fixed before a template asks for it; then the token stands below the level that
fixes it, where the value does not reach. -/
namespace ProductTemplates

namespace Application

variable {a : Application} {s : OverrideSet} {id : String}

/-- Whether a token for an id stands in a text that values are filled into. -/
def Mentions (a : Application) (id : String) : Prop :=
  (∃ name ∈ a.name, Placeholder.Mentions name id) ∨
    ∃ p ∈ a.startParameters, ∃ value ∈ p.value, Placeholder.Mentions value id

instance (a : Application) (id : String) : Decidable (a.Mentions id) :=
  inferInstanceAs (Decidable ((∃ name ∈ a.name, Placeholder.Mentions name id) ∨
    ∃ p ∈ a.startParameters, ∃ value ∈ p.value, Placeholder.Mentions value id))

theorem mentions_fillIn_iff (tidy : a.IsTidy) (plain : ∀ e ∈ s.entries, '$' ∉ e.value.toList) :
    (a.fillIn s).Mentions id ↔ a.Mentions id ∧ s.contains id = false := by
  have text {text : Option String} (tidyText : ∀ t ∈ text, Placeholder.IsTidy t.toList) :
      (∃ t ∈ text.map s.apply, Placeholder.Mentions t id) ↔
        (∃ t ∈ text, Placeholder.Mentions t id) ∧ s.contains id = false := by
    cases text with
    | none => simp
    | some t => simpa using OverrideSet.mentions_apply_iff (tidyText t rfl) plain
  have parameters : (∃ p ∈ (a.fillIn s).startParameters, ∃ value ∈ p.value,
        Placeholder.Mentions value id) ↔
      (∃ p ∈ a.startParameters, ∃ value ∈ p.value, Placeholder.Mentions value id) ∧
        s.contains id = false := by
    simp only [fillIn, List.mem_map, exists_exists_and_eq_and]
    constructor
    · rintro ⟨p, member, mentioned⟩
      obtain ⟨before, unfixed⟩ := (text (tidy.2 p member)).1 mentioned
      exact ⟨⟨p, member, before⟩, unfixed⟩
    · rintro ⟨⟨p, member, mentioned⟩, unfixed⟩
      exact ⟨p, member, (text (tidy.2 p member)).2 ⟨mentioned, unfixed⟩⟩
  rw [Mentions, Mentions, parameters, fillIn, text tidy.1, or_and_right]

end Application

namespace Resolution

variable {c : Catalogue} {maxDepth : Nat} {node : Resolvable} {exposed : List TemplateVariable}
  {inherited fixed : OverrideSet} {leaf level a : Application} {levels rest : List Application}
  {above nearer : List ApplicationTemplate} {t : ApplicationTemplate} {id : String}

theorem mem_zip_setsAlong (h : (level, fixed) ∈ levels.zip (setsAlong inherited levels)) :
    ∃ lower upper, levels = lower ++ level :: upper ∧
      fixed = inherited.merge ((lower ++ [level]).flatMap (·.fixedVariables)) := by
  induction levels generalizing inherited with
  | nil => simp at h
  | cons leaf levels ih =>
    rw [setsAlong_cons, List.zip_cons_cons] at h
    rcases List.mem_cons.1 h with same | later
    · obtain ⟨rfl, rfl⟩ := Prod.mk.inj same
      exact ⟨[], levels, rfl, by simp⟩
    · obtain ⟨lower, upper, rfl, rfl⟩ := ih later
      exact ⟨leaf :: lower, upper, rfl, by simp [OverrideSet.merge_append]⟩

/-- A token in what came about is left in the text of some level. -/
theorem Flattened.exists_level (flat : Flattened inherited leaf rest a) (h : a.Mentions id) :
    ∃ level fixed, (level, fixed) ∈ (leaf :: rest).zip (setsAlong inherited (leaf :: rest)) ∧
      (level.fillIn fixed).Mentions id := by
  rcases h with ⟨name, named, mentioned⟩ | ⟨p, member, value, isValue, mentioned⟩
  · rw [flat.name] at named
    obtain ⟨⟨level, fixed⟩, there, filled⟩ := List.exists_of_findSome?_eq_some named
    exact ⟨level, fixed, there, .inl ⟨name, filled, mentioned⟩⟩
  · obtain ⟨level, fixed, there, own⟩ : ∃ level fixed,
        (level, fixed) ∈ (leaf :: rest).zip (setsAlong inherited (leaf :: rest)) ∧
          p ∈ filledParameters level fixed := by
      rw [flat.startParameters] at member
      rw [setsAlong_cons, List.zip_cons_cons]
      rcases List.mem_append.1 member with own | inherited'
      · exact ⟨_, _, List.mem_cons_self, own⟩
      · obtain ⟨⟨level, fixed⟩, there, own⟩ := List.mem_flatMap.1 (firsts_sublist.subset inherited')
        rw [setsAlong_cons, List.tail_cons] at there
        exact ⟨level, fixed, List.mem_cons_of_mem _ there, own⟩
    exact ⟨level, fixed, there, .inr ⟨p, own, value, isValue, mentioned⟩⟩

/-- In tidy texts it was there from the start, and no level up to that one has a value for it. -/
theorem Flattened.exists_level_of_isTidy (flat : Flattened inherited leaf rest a)
    (tidy : ∀ level ∈ leaf :: rest, level.IsTidy)
    (plain : ∀ level ∈ leaf :: rest, level.FixesPlainly)
    (plainCaller : ∀ e ∈ inherited.entries, '$' ∉ e.value.toList) (h : a.Mentions id) :
    ∃ lower level upper, leaf :: rest = lower ++ level :: upper ∧ level.Mentions id ∧
      ¬ FixedBy inherited (lower ++ [level]) id := by
  obtain ⟨level, fixed, there, mentioned⟩ := flat.exists_level h
  obtain ⟨lower, upper, split, rfl⟩ := mem_zip_setsAlong there
  rw [split] at tidy plain
  rw [Application.mentions_fillIn_iff (tidy level (by simp)) ?_,
    ← Bool.not_eq_true, contains_merge_flatMap_iff] at mentioned
  · exact ⟨lower, level, upper, split, mentioned⟩
  · intro e member
    rcases OverrideSet.mem_entries_merge member with old | new
    · exact plainCaller e old
    · obtain ⟨own, below, fixes⟩ := List.mem_flatMap.1 new
      refine plain own ?_ e fixes
      rw [← List.singleton_append, ← List.append_assoc]
      exact List.mem_append_left _ below

/-- A template above a leaf is the first level to fix an id, and none before it asks for the id. -/
structure FixedFirst (inherited : OverrideSet) (leaf : Application)
    (nearer : List ApplicationTemplate) (t : ApplicationTemplate) (id : String) : Prop where
  fixes : t.app.Fixes id
  unfixed : ¬ FixedBy inherited (leaf :: nearer.map (·.app)) id
  unasked : ∀ s ∈ nearer, ¬ s.Declares id

/-- An id that is asked for but not open is fixed before it is asked for. -/
theorem fixedFirst_of_not_open (asked : ∃ t ∈ above, t.Declares id)
    (closed : ¬ OpenAlong inherited leaf above id) (free : ¬ FixedBy inherited [leaf] id) :
    ∃ nearer t farther, above = nearer ++ t :: farther ∧ FixedFirst inherited leaf nearer t id := by
  induction above generalizing inherited leaf with
  | nil => simp at asked
  | cons next above ih =>
    by_cases fixes : next.app.Fixes id
    · exact ⟨[], next, above, rfl, fixes, free, by simp⟩
    · have freeNext : ¬ FixedBy (inherited.merge leaf.fixedVariables) [next.app] id := by
        rw [fixedBy_merge_iff, ← List.singleton_append, fixedBy_append]
        simp [free, fixes]
      rw [openAlong_cons, not_or, ← fixedBy_merge_iff] at closed
      have unasked : ¬ next.Declares id := fun declares => closed.1 ⟨declares, freeNext⟩
      have later : ∃ t ∈ above, t.Declares id := by simpa [unasked] using asked
      obtain ⟨nearer, t, farther, rfl, first⟩ := ih later closed.2 freeNext
      refine ⟨next :: nearer, t, farther, rfl, first.fixes, mt fixedBy_merge_iff.2 first.unfixed, ?_⟩
      exact List.forall_mem_cons.2 ⟨unasked, first.unasked⟩

theorem mem_below_of_unfixed {lower upper : List Application} {farther : List ApplicationTemplate}
    (split : leaf :: (nearer ++ t :: farther).map (·.app) = lower ++ level :: upper)
    (unfixed : ¬ FixedBy inherited (lower ++ [level]) id) (fixes : t.app.Fixes id) :
    level ∈ leaf :: nearer.map (·.app) := by
  have other : t.app ∉ lower ++ [level] := fun member => unfixed (.inr ⟨_, member, fixes⟩)
  rw [List.map_append, List.map_cons, ← List.cons_append] at split
  rcases List.append_eq_append_iff.1 split with ⟨gap, rfl, rest⟩ | ⟨gap, same, rest⟩
  · cases gap with
    | nil => simp [(List.cons.inj rest).1] at other
    | cons first gap => simp [(List.cons.inj rest).1] at other
  · cases gap with
    | nil => simp [(List.cons.inj rest).1] at other
    | cons first gap => simp [same, (List.cons.inj rest).1]

/-- A token that is left in what came about, for an id that the caller lists or a template above the
node asks for, is seen by the caller unless the id is fixed before it is asked for. If values hold
no dollar signs and texts none but those of tokens, then the token stands in a text below the first
template that fixes the id. -/
theorem resolution_leftover {after : List TemplateVariable}
    (h : c.resolution maxDepth node exposed inherited = (.ok (some a), after)) :
    ∃ above, c.Lineage node above ∧ ∀ id, a.Mentions id →
      (id ∈ exposed.map (·.id) ∨ ∃ t ∈ above, t.Declares id) → id ∉ after.map (·.id) →
      (FixedBy inherited [node.body] id ∨ ∃ nearer t farther, above = nearer ++ t :: farther ∧
        FixedFirst inherited node.body nearer t id) ∧
      ((∀ level ∈ node.body :: above.map (·.app), level.IsTidy) →
        (∀ level ∈ node.body :: above.map (·.app), level.FixesPlainly) →
        (∀ e ∈ inherited.entries, '$' ∉ e.value.toList) →
        ∃ nearer t farther, above = nearer ++ t :: farther ∧
          FixedFirst inherited node.body nearer t id ∧
          ∃ level ∈ node.body :: nearer.map (·.app), level.Mentions id) := by
  have resolves := resolves_of_resolveNode [] node exposed inherited h
  obtain ⟨above, lineage, flat⟩ := resolves.flattened
  obtain ⟨above', lineage', seen⟩ := resolves.mem_after_iff
  obtain rfl := lineage.unique lineage'
  refine ⟨above, lineage, fun id mentioned asked unseen => ?_⟩
  have hidden (free : ¬ FixedBy inherited [node.body] id) : ∃ nearer t farther,
      above = nearer ++ t :: farther ∧ FixedFirst inherited node.body nearer t id := by
    have unlisted : id ∉ exposed.map (·.id) :=
      fun listed => unseen ((seen id).2 (.inl ⟨listed, fun _ => free⟩))
    have closed : ¬ OpenAlong inherited node.body above id :=
      fun isOpen => unseen ((seen id).2 (.inr ⟨unlisted, isOpen⟩))
    exact fixedFirst_of_not_open (asked.resolve_left unlisted) closed free
  refine ⟨or_iff_not_imp_left.2 hidden, fun tidy plain plainCaller => ?_⟩
  obtain ⟨lower, level, upper, split, mentions, unfixed⟩ :=
    flat.exists_level_of_isTidy tidy plain plainCaller mentioned
  have atLeaf : [node.body] ⊆ lower ++ [level] := by
    cases lower <;> simp [(List.cons.inj split).1]
  obtain ⟨nearer, t, farther, rfl, first⟩ := hidden fun fixed => unfixed (fixed.mono atLeaf)
  exact ⟨nearer, t, farther, rfl, first, level, mem_below_of_unfixed split unfixed first.fixes,
    mentions⟩

def serverTemplates : Catalogue :=
  [{ id := "server"
     app := { application := some "serverd", fixedVariables := [⟨"port", "80"⟩] }
     templateVariables := [{ id := "port" }, { id := "mode" }] }]

/-- An application that names the port of the server it is based on. -/
def namedAfterPort : Application :=
  { template := some "server", name := some "${port} ${mode}" }

def portNamed : Application := { namedAfterPort with application := some "serverd", template := none }

theorem namedAfterPort_resolution :
    serverTemplates.resolution 64 (.application namedAfterPort) [] .empty =
      (.ok (some portNamed), [{ id := "mode" }]) := by
  rw [Catalogue.resolution, resolveNode_of_goesOn rfl (show _ = some serverTemplates[0] from rfl),
    resolveNode_of_verdict (show _ = some .complete from rfl)]
  rfl

theorem namedAfterPort_lineage :
    serverTemplates.Lineage (.application namedAfterPort) serverTemplates :=
  .step rfl (.root rfl)

theorem portNamed_mentions : portNamed.Mentions "port" := by
  have text : decide (Placeholder.Mentions "${port} ${mode}" "port") = true := by decide +kernel
  exact .inl ⟨_, rfl, of_decide_eq_true text⟩

/-- Not every token whose id is asked for is seen by the caller. -/
theorem exists_token_unseen :
    ¬ ∀ (c : Catalogue) (maxDepth : Nat) (node : Resolvable) (exposed after : List TemplateVariable)
      (inherited : OverrideSet) (a : Application) (above : List ApplicationTemplate) (id : String),
      c.resolution maxDepth node exposed inherited = (.ok (some a), after) → c.Lineage node above →
        a.Mentions id → (∃ t ∈ above, t.Declares id) → id ∈ after.map (·.id) := by
  intro seen
  have there : "port" ∈ ([{ id := "mode" }] : List TemplateVariable).map (·.id) :=
    seen _ _ _ _ _ _ _ _ _ namedAfterPort_resolution namedAfterPort_lineage portNamed_mentions
      (by decide)
  exact absurd there (by decide)

theorem resolution_leftover_port :
    ∃ a after nearer t farther, serverTemplates = nearer ++ t :: farther ∧
      serverTemplates.resolution 64 (.application namedAfterPort) [] .empty = (.ok (some a), after) ∧
      a.Mentions "port" ∧ "port" ∉ after.map (·.id) ∧
      FixedFirst .empty namedAfterPort nearer t "port" ∧
      ∃ level ∈ namedAfterPort :: nearer.map (·.app), level.Mentions "port" := by
  obtain ⟨above, lineage, leftover⟩ := resolution_leftover namedAfterPort_resolution
  obtain rfl := lineage.unique namedAfterPort_lineage
  have tidy : ∀ level ∈ namedAfterPort :: serverTemplates.map (·.app), level.IsTidy := by
    have decided : (namedAfterPort :: serverTemplates.map (·.app)).all
        (fun level => decide level.IsTidy) = true := by decide +kernel
    simpa using decided
  have plain : ∀ level ∈ namedAfterPort :: serverTemplates.map (·.app), level.FixesPlainly := by
    simp [Application.FixesPlainly, namedAfterPort, serverTemplates]
  have unseen : "port" ∉ ([{ id := "mode" }] : List TemplateVariable).map (·.id) := by decide
  obtain ⟨nearer, t, farther, split, first, below⟩ :=
    (leftover "port" portNamed_mentions (.inr (by decide)) unseen).2 tidy plain
      (by simp [OverrideSet.empty])
  exact ⟨_, _, nearer, t, farther, split, namedAfterPort_resolution, portNamed_mentions, unseen,
    first, below⟩

end Resolution
end ProductTemplates
