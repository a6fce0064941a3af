import Webvirtd.App.Isolation

/-!
# App.Writes — the preconditions of `async_write`

A stream may be written when its handshake has completed, it has not been closed, and no write on it is
outstanding.  `broadcast` writes to whatever is in the bucket, so a run keeps to this exactly when every
broadcast finds all of the bucket so.
-/

namespace Webvirtd.App

open Lib Virt Http

/-- Every write so far was started on an open stream without an outstanding write. -/
def Disciplined (s : State) : Prop := ∀ w ∈ s.writes, w.ready = true ∧ w.outstanding = false

/-- When an event is about to be broadcast to a user, all websockets in the bucket of the user are open
and idle. -/
def BroadcastAllowed (s : State) : Action → Prop
  | .event user _ _ type (some _) => type.isTarget = true →
    ∀ i ∈ s.buckets user, ∃ k, s.socks i = some k ∧ k.phase.isOpen = true ∧ k.writing = 0
  | _ => True

section

variable {strerror : ℤ → String} {s t : State}

/-- The writes of one broadcast are disciplined exactly when the bucket allows it. -/
theorem broadcast_disciplined_iff (h : SocksOk s) (source : Handle) (user : User) (data : Json) :
    (∀ w ∈ (s.buckets user).reverse.flatMap fun i => s.writeOf source data i,
      w.ready = true ∧ w.outstanding = false) ↔
      ∀ i ∈ s.buckets user, ∃ k, s.socks i = some k ∧ k.phase.isOpen = true ∧ k.writing = 0 := by
  have hwrite : ∀ i k, s.socks i = some k →
      s.writeOf source data i = [⟨i, source, data, k.phase.isOpen, 0 < k.writing⟩] := by
    intro i k hk
    unfold State.writeOf
    rw [hk]
    rfl
  constructor
  · intro hw i hi
    obtain ⟨k, hk, -⟩ := (h.bucket user i).mp hi
    have hmem : (⟨i, source, data, k.phase.isOpen, 0 < k.writing⟩ : Write) ∈
        (s.buckets user).reverse.flatMap fun i => s.writeOf source data i :=
      List.mem_flatMap.mpr ⟨i, List.mem_reverse.mpr hi, by rw [hwrite i k hk]; simp⟩
    obtain ⟨hready, hout⟩ := hw _ hmem
    have hidle : ¬ 0 < k.writing := of_decide_eq_false hout
    exact ⟨k, hk, hready, by omega⟩
  · intro hb w hw
    obtain ⟨i, hi, hw⟩ := List.mem_flatMap.mp hw
    obtain ⟨k, hk, hopen, hidle⟩ := hb i (List.mem_reverse.mp hi)
    rw [hwrite i k hk] at hw
    obtain rfl := List.mem_singleton.mp hw
    refine ⟨hopen, ?_⟩
    show decide (0 < k.writing) = false
    rw [hidle]
    rfl

/-- One step: discipline is kept exactly by the allowed broadcasts. -/
theorem disciplined_step (h : AppInv s) (hd : Disciplined s) {a : Action}
    (ha : s.Outcome strerror t a) : Disciplined t ↔ BroadcastAllowed s a := by
  cases hev : a with
  | event user hd' id type domain =>
    subst hev
    rcases event_of_handleOpen h.core ha.1 ha.2 with ⟨-, rfl, rfl⟩ | ⟨htype, data, rfl, ht⟩ |
      ⟨htype, rfl⟩
    · exact ⟨fun _ => trivial, fun _ => hd⟩
    · have hwrites : t.writes =
          ((s.buckets user).reverse.flatMap fun i => s.writeOf hd' data i) ++ s.writes := by
        rw [ht, State.broadcast_spec s hd' data user (h.socks.nodup _)]
      constructor
      · intro hdt _
        refine (broadcast_disciplined_iff h.socks hd' user data).mp fun w hw => hdt w ?_
        rw [hwrites]
        exact List.mem_append_left _ hw
      · intro hallowed w hw
        rw [hwrites] at hw
        rcases List.mem_append.mp hw with hw | hw
        · exact (broadcast_disciplined_iff h.socks hd' user data).mpr (hallowed htype) w hw
        · exact hd w hw
    · refine ⟨fun _ => ?_, fun _ => hd⟩
      cases domain with
      | none => trivial
      | some data =>
        intro htrue
        rw [htype] at htrue
        cases htrue
  | _ =>
    subst hev
    refine ⟨fun _ => trivial, fun _ => ?_⟩
    rcases writes_outcome h.core ha with hsame | ⟨user, hd', id, type, data, he, -⟩
    · intro w hw
      exact hd w (hsame ▸ hw)
    · cases he

end

/-- **Write discipline.**  Along a run every `async_write` is started on a stream that is open and idle
if and only if every broadcast of the run finds the bucket in that state. -/
theorem write_discipline_iff (strerror : ℤ → String) (as : List Action) :
    (appMachine strerror).Always Disciplined {} as ↔
      (appMachine strerror).Meets BroadcastAllowed {} as := by
  have hinit : Disciplined {} := fun _ hw => absurd hw List.not_mem_nil
  refine (appInvariant strerror).always_iff_meets hinit ?_ as
  intro s a t hs _ hd hst
  exact disciplined_step hs hd (State.step_outcome hst).2

/-- Two events in a row: the second write is started while the first is outstanding. -/
theorem write_overlap :
    ¬ (appMachine fun _ => "").Always Disciplined {}
      [.request "/users/ann/websocket/" true none, .asyncRun 0, .accept 0 true, .find 0,
        .addEvents 0 7, .event "ann" 0 7 .shutdown (some .null),
        .event "ann" 0 7 .stopped (some .null)] := by
  intro h
  obtain ⟨s, hs, w, hw, hout⟩ : ∃ s, (appMachine fun _ => "").exec {}
      [.request "/users/ann/websocket/" true none, .asyncRun 0, .accept 0 true, .find 0,
        .addEvents 0 7, .event "ann" 0 7 .shutdown (some .null),
        .event "ann" 0 7 .stopped (some .null)] = some s ∧
      ∃ w ∈ s.writes, w.outstanding = true := ⟨_, rfl, _, List.mem_cons_self, rfl⟩
  have hidle := (h.last hs w hw).2
  rw [hout] at hidle
  cases hidle

end Webvirtd.App
