import Emcyphal.Lib.Machine
import Emcyphal.Tx.Registry.Changes

/-!
# Transfers of one priority

After a frame that does not end its transfer, the entry is in front of the started entries of the
priority, and only three things take it away: a frame that is fetched at the priority, the end of
its registration, or a more urgent transfer that is pushed to the same buffer.  The last one moves
the entry to another list, so that a fetch with a mask that hides the more urgent priority is from
whatever entry is next.
-/

set_option autoImplicit false

namespace Emcyphal.Registry

open Rust TxQueue

/-- A step that leaves the entry in front of the started ones: it stays registered, no frame of the
priority is fetched, and nothing more urgent is pushed to it. -/
def Passes (a : Address) (p : Priority) (x : Op × Event) : Prop :=
  x.1 ≠ .unregister a ∧
  (∀ b frame, x.2 = .popped (some (b, frame)) → frame.header.priority ≠ p) ∧
  ∀ m length crc, x.1 = .tryPush a m length crc → x.2 = .pushed (.ok ()) → p ≤ m.priority

instance (a : Address) (p : Priority) : (x : Op × Event) → Decidable (Passes a p x)
  | (op, event) =>
    have : Decidable (∀ b frame, event = .popped (some (b, frame)) → frame.header.priority ≠ p) :=
      match event with
      | .popped (some (b, frame)) =>
        decidable_of_iff (frame.header.priority ≠ p)
          ⟨fun h _ _ heq ↦ by cases heq; exact h, fun h ↦ h b frame rfl⟩
      | .popped none | .registered _ | .unregistered | .scratchpad _ | .written | .pushed _ =>
        isTrue fun _ _ heq ↦ by cases heq
    have : Decidable (∀ m length crc, op = .tryPush a m length crc → event = .pushed (.ok ()) →
        p ≤ m.priority) :=
      match op with
      | .tryPush b m length crc =>
        decidable_of_iff (b = a → event = .pushed (.ok ()) → p ≤ m.priority)
          ⟨fun h _ _ _ heq hevent ↦ by cases heq; exact h rfl hevent,
            fun h hb hevent ↦ h m length crc (by rw [hb]) hevent⟩
      | .register _ _ | .unregister _ | .getScratchpad _ | .writeScratchpad _ _ | .pollPop _ _ _ =>
        isTrue fun _ _ _ heq ↦ by cases heq
    inferInstanceAs (Decidable (_ ∧ _ ∧ _))

variable {q q' : TxQueue} {op : Op} {event : Event} {a : Address} {p : Priority}

/-- The entry in front of a list is not in front of another one. -/
theorem ne_of_fronts (hq : q.Inv) {b : Address} {id id' : QueueId}
    (ha : (q.queues.getQueue id).head? = some a) (hb : (q.queues.getQueue id').head? = some b)
    (hid : id.1 ≠ id'.1) : b ≠ a := by
  rintro rfl
  have hmark := (hq.linked.mem id b).mp (List.mem_of_head? ha)
  have hmark' := (hq.linked.mem id' b).mp (List.mem_of_head? hb)
  cases hmark.symm.trans hmark'
  exact hid rfl

theorem serving_eq (q : TxQueue) (p : Priority) : ∃ k, q.serving p = q.queues.getQueue (p, k) := by
  rw [serving]
  split
  · exact ⟨.finished, rfl⟩
  · exact ⟨.started, rfl⟩

/-- The entry stays in front. -/
theorem Changes.front (hc : Changes q op q' event) (hq : q.Inv)
    (hfront : (q.queues.started p).head? = some a) (hpass : Passes a p (op, event)) :
    (q'.queues.started p).head? = some a := by
  obtain ⟨hstays, hpriority, hpush⟩ := hpass
  cases hc with
  | @register b init q' hfree hstarted hfronts =>
    refine hfronts a (p, .started) ?_ hfront
    rintro rfl
    obtain ⟨e, -, -, he, -⟩ := hq.of_front (p := p) (k := .started) hfront
    cases hfree.symm.trans he
  | reject => exact hfront
  | unregister hstarted hfronts =>
    refine hfronts a (p, .started) ?_ hfront
    rintro rfl
    exact hstays rfl
  | scratchpad hstarted hqueues => rwa [hqueues]
  | write hstarted hqueues => rwa [hqueues]
  | refuse hstarted hqueues => rwa [hqueues]
  | @push b q' m length crc hstarted hfronts hown =>
    by_cases hb : b = a
    · subst hb
      exact hown (p, .started) hfront (hpush m length crc rfl rfl)
    · exact hfronts a (p, .started) (Ne.symm hb) hfront
  | pending hstarted hqueues => rwa [hqueues]
  | @pop waker mask mtu q' p' b frame eot hpopped =>
    have hp' : p ≠ p' := by
      have hne := hpriority b frame rfl
      rw [hpopped.priority] at hne
      exact hne.symm
    obtain ⟨k, hk⟩ := serving_eq q p'
    have hb := hpopped.front
    rw [hk] at hb
    have hfront' : (q.queues.getQueue (p, .started)).head? = some a := hfront
    exact hpopped.others a (p, .started) (ne_of_fronts hq hfront' hb hp').symm hfront

/-- The entry stays in front during a run. -/
theorem front_of_run {r r' : Registry} (hr : r.Inv) {ops : List Op} {events : List Event}
    (hops : Admissible step Valid r ops) (hrun : run step r ops = .ok (r', events))
    (hfront : (r.queue.queues.started p).head? = some a)
    (hpass : ∀ x ∈ ops.zip events, Passes a p x) :
    r'.Inv ∧ (r'.queue.queues.started p).head? = some a := by
  induction ops generalizing r events with
  | nil =>
    cases hrun
    exact ⟨hr, hfront⟩
  | cons op ops ih =>
    obtain ⟨hop, hrest⟩ := hops
    obtain ⟨s, event, events', hstep, hrun', rfl⟩ := run_cons_eq_ok.mp hrun
    obtain ⟨s', event', hstep', hs, hchanges⟩ := hr.step hop
    cases hstep.symm.trans hstep'
    rw [hstep] at hrest
    exact ih hs hrest hrun' (hchanges.front hr.queue hfront (hpass _ (by simp)))
      fun x hx ↦ hpass x (by simp [hx])

/-- **Transfers of one priority are not interleaved** by fetches, pushes and registrations, unless a
more urgent transfer is pushed to the entry in the middle of one. -/
theorem not_interleaved {r : Registry} (hr : r = .message .new ∨ r = .response .new)
    {before between : List Op} {r₁ r₂ r₃ r₄ : Registry} {events₁ events₃ : List Event}
    (hbefore : Admissible step Valid r before) (hrun₁ : run step r before = .ok (r₁, events₁))
    {waker waker' : Waker} {mask mask' : PrioritySet} {mtu mtu' : Mtu} {a a' : Address}
    {frame frame' : Frame}
    (hfirst : r₁.step (.pollPop waker mask mtu) = .ok (r₂, .popped (some (a, frame))))
    (hnotEot : isEotFrame frame = some false)
    (hbetween : Admissible step Valid r₂ between) (hrun₃ : run step r₂ between = .ok (r₃, events₃))
    (hpass : ∀ x ∈ between.zip events₃, Passes a frame.header.priority x)
    (hsecond : r₃.step (.pollPop waker' mask' mtu') = .ok (r₄, .popped (some (a', frame'))))
    (hpriority : frame'.header.priority = frame.header.priority) : a' = a := by
  have hinv : r.Inv := by
    rcases hr with rfl | rfl
    · exact inv_message
    · exact inv_response
  obtain ⟨t, events, hrun, h₁⟩ := run_of_admissible
    (fun s op (hs : s.Inv) hop ↦ by
      obtain ⟨s', event, hstep, hs', -⟩ := hs.step hop
      exact ⟨s', event, hstep, hs'⟩) hinv hbefore
  cases hrun₁.symm.trans hrun
  obtain ⟨t₂, event₂, hstep₂, h₂, hchanges₂⟩ :=
    h₁.step (show r₁.Valid (.pollPop waker mask mtu) from trivial)
  cases hfirst.symm.trans hstep₂
  cases hchanges₂ with
  | @pop _ _ _ _ p _ _ eot hpopped =>
    have heot : eot = false := Option.some_injective _ (hpopped.ends.symm.trans hnotEot)
    rw [hpopped.priority] at hpriority hpass
    obtain ⟨h₃, hfront⟩ := front_of_run h₂ hbetween hrun₃ (hpopped.served heot) hpass
    obtain ⟨t₄, event₄, hstep₄, -, hchanges₄⟩ :=
      h₃.step (show r₃.Valid (.pollPop waker' mask' mtu') from trivial)
    cases hsecond.symm.trans hstep₄
    cases hchanges₄ with
    | @pop _ _ _ _ p' _ _ _ hpopped' =>
      have hp' : p' = p := hpopped'.priority.symm.trans hpriority
      subst hp'
      have hserving : r₃.queue.serving p' = r₃.queue.queues.started p' := by
        rw [serving, if_neg]
        intro hnil
        rw [hnil] at hfront
        cases hfront
      have hfront' := hpopped'.front
      rw [hserving, hfront] at hfront'
      exact (Option.some_injective _ hfront').symm

theorem not_interleaved_two_entries : ∃ r₁ r₂ r₃ r₄ events₁ events₃ a a' frame frame',
    run step (.message .new) [.register 1 (.blocking 5 .nominal (List.replicate 16 0)),
        .register 2 (.blocking 6 .nominal [0]), .getScratchpad 1,
        .tryPush 1 ⟨.nominal, none, 0, 100, false⟩ 16 .default] = .ok (r₁, events₁) ∧
    r₁.step (.pollPop 0 .ALL .classic) = .ok (r₂, .popped (some (a, frame))) ∧
    isEotFrame frame = some false ∧
    run step r₂ [.getScratchpad 2, .tryPush 2 ⟨.nominal, none, 0, 100, false⟩ 1 .default] =
      .ok (r₃, events₃) ∧
    r₃.step (.pollPop 0 .ALL .classic) = .ok (r₄, .popped (some (a', frame'))) ∧ a' = a := by
  refine ⟨_, _, _, _, _, _, _, _, _, _, rfl, rfl, ?_, rfl, rfl, ?_⟩
  · decide
  · exact @not_interleaved (.message .new) (.inl rfl)
      [.register 1 (.blocking 5 .nominal (List.replicate 16 0)),
        .register 2 (.blocking 6 .nominal [0]),
        .getScratchpad 1, .tryPush 1 ⟨.nominal, none, 0, 100, false⟩ 16 .default]
      [.getScratchpad 2, .tryPush 2 ⟨.nominal, none, 0, 100, false⟩ 1 .default] _ _ _ _ _ _
        (by decide) rfl
      0 0 .ALL .ALL .classic .classic _ _ _ _ rfl (by decide) (by decide) rfl (by decide)
        rfl (by decide)

/-- The entry of a frame, its priority, and whether it ends the transfer. -/
def emitted : Event → Option (Address × Priority × Option Bool)
  | .popped (some (a, frame)) => some (a, frame.header.priority, isEotFrame frame)
  | _ => none

/-- A response of priority high is pushed after the first frame of one of priority nominal, and the
next fetch does not allow high. -/
theorem interleaved_when_hidden :
    (run step (.response .new) [.register 1 (.response 3 (List.replicate 8 (List.replicate 16 0))),
        .register 2 (.response 4 (List.replicate 8 [0])),
        .getScratchpad 1, .tryPush 1 ⟨.nominal, some 10, 0, 100, false⟩ 16 .default,
        .getScratchpad 2, .tryPush 2 ⟨.nominal, some 11, 0, 100, false⟩ 1 .default,
        .pollPop 0 (.newEq .nominal) .classic,
        .getScratchpad 1, .tryPush 1 ⟨.high, some 10, 1, 100, false⟩ 1 .default,
        .pollPop 0 (.newEq .nominal) .classic]).map (fun x ↦ x.2.filterMap emitted) =
      .ok [(1, .nominal, some false), (2, .nominal, some true)] := by
  decide

end Emcyphal.Registry
