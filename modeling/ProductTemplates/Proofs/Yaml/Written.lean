import ProductTemplates.Yaml.Reader

/-! In a YAML document nothing but tags tells the type of a scalar: every part of it stands there as it
was written. -/
namespace ProductTemplates

namespace Document

/-- Whether all scalars and collections of a document were written, none of them typed. -/
inductive Node.IsWritten : Node → Prop where
  | scalar {text : String} {plain : Bool} {tag : Option String} :
    IsWritten (.scalar (.written text plain tag))
  | sequence {tag : Option String} {items : List Node} {complete : Bool} :
    (∀ n ∈ items, IsWritten n) → IsWritten (.sequence (.written tag) items complete)
  | mapping {tag : Option String} {entries : List (Node × Node)} {complete : Bool} :
    (∀ e ∈ entries, IsWritten e.1) → (∀ e ∈ entries, IsWritten e.2) →
      IsWritten (.mapping (.written tag) entries complete)
  | refused : IsWritten .refused
  | malformed : IsWritten .malformed

def Event.IsWritten : Event → Prop
  | .scalar (.atom _) => False
  | .openSequence .typed => False
  | .openMapping .typed => False
  | _ => True

namespace Compose

variable {f : Frame} {n : Node} {s : State} {e : Event} {limit : Nat} {events : List Event}

def Frame.IsWritten : Frame → Prop
  | .sequence shape items => (∃ tag, shape = .written tag) ∧ ∀ n ∈ items, n.IsWritten
  | .mapping shape entries key => (∃ tag, shape = .written tag) ∧
    (∀ e ∈ entries, e.1.IsWritten ∧ e.2.IsWritten) ∧ ∀ k ∈ key, k.IsWritten

theorem isWritten_mapping {tag : Option String} {entries : List (Node × Node)} {complete : Bool}
    (each : ∀ e ∈ entries, e.1.IsWritten ∧ e.2.IsWritten) :
    (Node.mapping (.written tag) entries.reverse complete).IsWritten := by
  refine .mapping (fun e member => ?_) fun e member => ?_
  · exact (each e (List.mem_reverse.1 member)).1
  · exact (each e (List.mem_reverse.1 member)).2

theorem Frame.IsWritten.add (written : f.IsWritten) (h : n.IsWritten) : (f.add n).IsWritten := by
  cases f with
  | sequence shape items => exact ⟨written.1, List.forall_mem_cons.2 ⟨h, written.2⟩⟩
  | mapping shape entries key =>
    obtain ⟨shape, entries, pending⟩ := written
    cases key with
    | none => exact ⟨shape, entries, by simpa using h⟩
    | some k => exact ⟨shape, List.forall_mem_cons.2 ⟨⟨pending k rfl, h⟩, entries⟩, by simp⟩

theorem Frame.IsWritten.finish (written : f.IsWritten) : f.finish.IsWritten := by
  cases f with
  | sequence shape items =>
    obtain ⟨⟨tag, rfl⟩, items⟩ := written
    exact .sequence (by simpa using items)
  | mapping shape entries key =>
    obtain ⟨⟨tag, rfl⟩, entries, pending⟩ := written
    cases key with
    | none => exact isWritten_mapping entries
    | some k =>
      exact isWritten_mapping (List.forall_mem_cons.2 ⟨⟨pending k rfl, .malformed⟩, entries⟩)

theorem Frame.IsWritten.abandon (written : f.IsWritten) : f.abandon.IsWritten := by
  cases f with
  | sequence shape items =>
    obtain ⟨⟨tag, rfl⟩, items⟩ := written
    exact .sequence (by simpa using items)
  | mapping shape entries key =>
    obtain ⟨⟨tag, rfl⟩, entries, pending⟩ := written
    cases key with
    | none => exact isWritten_mapping entries
    | some k =>
      exact isWritten_mapping (List.forall_mem_cons.2 ⟨⟨pending k rfl, .malformed⟩, entries⟩)

structure State.IsWritten (s : State) : Prop where
  frames : ∀ f ∈ s.frames, f.IsWritten
  root : ∀ n ∈ s.root, n.IsWritten

theorem State.IsWritten.add (written : s.IsWritten) (h : n.IsWritten) : (s.add n).IsWritten := by
  unfold State.add
  split
  · refine ⟨written.frames, ?_⟩
    cases root : s.root with
    | none => simpa using h
    | some m => simpa using written.root m root
  · next f outer framed =>
    have frames := written.frames
    rw [framed, List.forall_mem_cons] at frames
    exact ⟨List.forall_mem_cons.2 ⟨frames.1.add h, frames.2⟩, written.root⟩

theorem State.IsWritten.step (written : s.IsWritten) (h : e.IsWritten) :
    (s.step limit e).IsWritten := by
  cases e with
  | scalar x =>
    cases x with
    | atom => exact h.elim
    | written => exact written.add .scalar
  | refused => exact written.add .refused
  | openSequence shape =>
    cases shape with
    | typed => exact h.elim
    | written tag =>
      exact ⟨List.forall_mem_cons.2 ⟨⟨⟨tag, rfl⟩, by simp⟩, written.frames⟩, written.root⟩
  | openMapping shape =>
    cases shape with
    | typed => exact h.elim
    | written tag =>
      exact ⟨List.forall_mem_cons.2 ⟨⟨⟨tag, rfl⟩, by simp, by simp⟩, written.frames⟩, written.root⟩
  | close =>
    rw [State.step]
    cases framed : s.frames with
    | nil => exact written
    | cons f outer =>
      have frames := written.frames
      rw [framed, List.forall_mem_cons] at frames
      have outside : State.IsWritten { s with frames := outer } := ⟨frames.2, written.root⟩
      apply outside.add
      split
      · exact frames.1.finish
      · exact .refused

theorem isWritten_abandonAll {frames : List Frame} {inner : Option Node}
    (written : ∀ f ∈ frames, f.IsWritten) (h : ∀ n ∈ inner, n.IsWritten) :
    ∀ n ∈ abandonAll frames inner, n.IsWritten := by
  induction frames generalizing inner with
  | nil => exact h
  | cons f outer ih =>
    rw [List.forall_mem_cons] at written
    refine ih written.2 fun n same => ?_
    obtain rfl := Option.some.inj same
    cases inner with
    | none => exact written.1.abandon
    | some m => exact (written.1.add (h m rfl)).abandon

end Compose

theorem Node.isWritten_ofEvents? {limit : Nat} {events : List Event} {n : Node}
    (written : ∀ e ∈ events, e.IsWritten) (h : Node.ofEvents? limit events = some n) : n.IsWritten := by
  have run (s : Compose.State) (start : s.IsWritten) :
      (events.foldl (Compose.State.step limit) s).IsWritten := by
    clear h
    induction events generalizing s with
    | nil => exact start
    | cons e rest ih =>
      rw [List.forall_mem_cons] at written
      exact ih written.2 _ (start.step written.1)
  have last := run {} ⟨by simp, by simp⟩
  unfold Node.ofEvents? Compose.State.finish at h
  cases root : (events.foldl (Compose.State.step limit) {}).root with
  | some m =>
    rw [root] at h
    obtain rfl := Option.some.inj h
    exact last.root m root
  | none =>
    rw [root] at h
    exact Compose.isWritten_abandonAll last.frames (by simp) n h

end Document

namespace Yaml

def Part.IsWritten : Part → Prop
  | .event e => e.IsWritten
  | .reference _ => True

theorem isWritten_parts (anchors : Anchors) (place : Nat) (events : List Event) :
    ∀ p ∈ (parts anchors place events).1, p.IsWritten := by
  fun_induction parts anchors place events with
  | case1 | case3 | case4 => simp
  | case2 _ _ _ _ ih => exact ih
  | case5 _ _ _ _ _ _ _ _ _ same _ ih =>
    rw [same] at ih
    exact List.forall_mem_cons.2 ⟨trivial, ih⟩
  | case6 _ _ _ _ _ _ _ anchor ih | case7 _ _ _ _ _ anchor ih | case8 _ _ _ _ _ anchor ih =>
    exact List.forall_mem_cons.2 ⟨trivial, ih anchor⟩
  | case9 _ _ _ _ ih => exact List.forall_mem_cons.2 ⟨trivial, ih none⟩

theorem mem_of_firstNode? {depth : Int} {ps found : List Part} (h : firstNode? depth ps = some found) :
    ∀ p ∈ found, p ∈ ps := by
  induction ps generalizing depth found with
  | nil => contradiction
  | cons p rest ih =>
    rw [firstNode?] at h
    split at h
    · obtain rfl := Option.some.inj h
      simp
    · obtain ⟨more, later, rfl⟩ := Option.map_eq_some_iff.1 h
      intro q member
      rcases List.mem_cons.1 member with rfl | inside
      · exact List.mem_cons_self
      · exact List.mem_cons_of_mem p (ih later q inside)

theorem isWritten_follow {node? : Nat → Option (List Part)} {budget : Nat} {ps : List Part}
    (known : ∀ number found, node? number = some found → ∀ p ∈ found, p.IsWritten)
    (written : ∀ p ∈ ps, p.IsWritten) : ∀ e ∈ follow node? budget ps, e.IsWritten := by
  fun_induction follow node? budget ps with
  | case1 => simp
  | case2 budget e rest ih =>
    rw [List.forall_mem_cons] at written ⊢
    exact ⟨written.1, ih written.2⟩
  | case3 _ _ ih | case5 _ _ _ _ ih =>
    rw [List.forall_mem_cons] at written ⊢
    exact ⟨trivial, ih written.2⟩
  | case4 budget number rest found there ih =>
    rw [List.forall_mem_cons] at written
    exact ih (List.forall_mem_append.2 ⟨known number found there, written.2⟩)

theorem isWritten_readText (text : String) : (readText text).root.IsWritten := by
  unfold readText
  dsimp only
  split
  · exact .mapping (by simp) (by simp)
  · cases found : Document.Node.ofEvents? maxNesting _ with
    | none => exact .malformed
    | some n =>
      refine Document.Node.isWritten_ofEvents? (isWritten_follow ?_ (isWritten_parts _ _ _)) found
      intro number parts there p member
      obtain ⟨place, -, first⟩ := Option.bind_eq_some_iff.1 there
      exact isWritten_parts _ _ _ p (List.mem_of_mem_drop (mem_of_firstNode? first p member))

def Part.event? : Part → Option Document.Event
  | .event e => some e
  | .reference _ => none

/-- The events of a text that is one document without references. -/
def plainEvents? (text : String) : Option (List Document.Event) :=
  let (found, whole) := events (tokens text.toList)
  let (ps, _, behind) := parts {} 0 found
  if !found.isEmpty && whole && behind = some [] then ps.mapM Part.event? else none

theorem follow_events (node? : Nat → Option (List Part)) (budget : Nat)
    (es : List Document.Event) : follow node? budget (es.map .event) = es := by
  induction es with
  | nil => simp [follow]
  | cons e es ih => rw [List.map_cons, follow, ih]

theorem eq_map_event {ps : List Part} {es : List Document.Event}
    (h : ps.mapM Part.event? = some es) : ps = es.map .event := by
  induction ps generalizing es with
  | nil => simp_all
  | cons p ps ih =>
    rw [List.mapM_cons] at h
    obtain ⟨e, own, h⟩ := Option.bind_eq_some_iff.1 h
    obtain ⟨others, rest, h⟩ := Option.bind_eq_some_iff.1 h
    obtain rfl := Option.some.inj h
    cases p with
    | event e' =>
      obtain rfl := Option.some.inj own
      rw [List.map_cons, ih rest]
    | reference => contradiction

theorem readText_of_plainEvents? {text : String} {es : List Document.Event}
    (h : plainEvents? text = some es) :
    readText text = ⟨(Document.Node.ofEvents? maxNesting es).getD .malformed, true⟩ := by
  unfold plainEvents? at h
  dsimp only at h
  split at h
  · next one =>
    obtain ⟨⟨nonempty, whole⟩, last⟩ : ((events (tokens text.toList)).1.isEmpty = false ∧
        (events (tokens text.toList)).2 = true) ∧
        (parts {} 0 (events (tokens text.toList)).1).2.2 = some [] := by simpa using one
    unfold readText
    simp only [nonempty, whole, last, eq_map_event h, follow_events, Bool.false_and,
      Bool.false_eq_true, if_false, decide_true, Bool.and_self]
  · contradiction

end Yaml
end ProductTemplates
