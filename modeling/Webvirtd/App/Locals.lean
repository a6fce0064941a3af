import Webvirtd.App.Containment
import Webvirtd.Views.Locals

/-!
# App.Locals — what the daemon shows of uninitialised locals

The views show it in their responses, and the callback of lifecycle events in the messages that it broadcasts
(`messages`).  `contents_unseen_iff`: neither depends on what the locals hold exactly if libvirt fails for no domain
whose state, or whose autostart, is then shown.
-/

namespace Webvirtd.App

open Lib Virt Http Views Data

/-- The locals, among what the handlers ask. -/
def handlerContents : (c : HandlerCmd) → Option (Int32 → HandlerCmd.Res c)
  | .op o => contents o
  | _ => none

/-- The messages that are broadcast, each with the user whose websockets get it. -/
def broadcasts (es : List (Event HandlerCmd.Res)) : List (User × Json) :=
  es.filterMap fun
    | ⟨.broadcast user data, _⟩ => some (user, data)
    | _ => none

theorem broadcasts_append (es es' : List (Event HandlerCmd.Res)) :
    broadcasts (es ++ es') = broadcasts es ++ broadcasts es' := List.filterMap_append

section

variable {σ : Type} (D : Daemon σ)

/-- The messages of the callbacks `ds`, when the locals hold `us`. -/
def messages (ds : List Dispatch) (w : σ) (us : Stream' Int32) : List (User × Json) :=
  broadcasts ((runOne ds).events (withInputs handlerContents D.handler) () (w, us))

/-- They are the same whatever the locals hold. -/
def MessagesUnseen (ds : List Dispatch) (w : σ) : Prop := ∀ us us', messages D ds w us = messages D ds w us'

/-- The state of each domain of interest is known, up to the first exception. -/
def MessagesKnown : σ → List Dispatch → Prop
  | _, [] => True
  | w, .timeout :: ds => MessagesKnown w ds
  | _, .close :: _ => True
  | w, .lifecycle user domain type :: ds =>
    if type.isTarget then
      StateKnown D.ops w domain (fun _ => True) ∧
        ∀ data r w', Eff.EndsWith contents D.ops (simpleDomain domain) {} w (.ok data) r w' →
          MessagesKnown (D.handler w' (.broadcast user data)).2 ds
    else MessagesKnown w ds

end

section

variable {σ : Type} {D : Daemon σ} {w w' : σ} {us us' : Stream' Int32} {ds : List Dispatch} {user : User}
  {domain : DomainPtr} {type : EventType}

/-- A callback that does nothing. -/
theorem messages_skip {d : Dispatch} (hrun : d.run = pure ()) :
    messages D (d :: ds) w us = messages D ds w us := by
  show broadcasts ((d.run >>= fun _ => runOne ds).events _ () (w, us)) = _
  rw [hrun, pure_bind]
  rfl

theorem messages_close (D : Daemon σ) (ds : List Dispatch) (w : σ) (us : Stream' Int32) :
    messages D (.close :: ds) w us = [] := by
  have hall : Eff.Makes (withInputs handlerContents D.handler) (runOne (.close :: ds)) () (w, us) _ _ _ _ :=
    (Eff.Makes.throw _ () (w, us)).bind_error
  unfold messages
  rw [hall.events]
  rfl

/-- The documents of handlers find in their locals what the ones of views find. -/
theorem ops_withInputs (D : Daemon σ) :
    (fun w o => withInputs handlerContents D.handler w (.op o)) = withInputs contents D.ops := by
  funext w o
  cases o with
  | uninitialised => rfl
  | _ => rfl

theorem uses_document {m : ViewM Json} (hm : Ends m) :
    Eff.Uses (fun c => ∃ o, c = .op o) (fun _ => True) (HandlerM.ofView m) := fun _ =>
  ((hm.uses {}).lift fun o _ => ⟨o, rfl⟩).bind fun
    | (.ok a, _), _ => Eff.throws_ok a ()
    | (.error e, _), _ => Eff.throws_error (e := Escape.failure e) trivial ()

/-- A document broadcasts nothing. -/
theorem makes_document {x : Except Failure Json} {r : Response}
    (h : (simpleDomain domain).exec (withInputs contents D.ops) {} (w, us) = (x, r, w', us')) :
    ∃ es, Eff.Makes (withInputs handlerContents D.handler) (HandlerM.ofView (simpleDomain domain)) () (w, us) es
      (x.mapError .failure) () (w', us') ∧ broadcasts es = [] := by
  have hmakes : Eff.Makes (withInputs handlerContents D.handler) (HandlerM.ofView (simpleDomain domain)) () (w, us)
    _ _ _ _ := Eff.makes_events _ () (w, us)
  have hexec := exec_ofView (withInputs handlerContents D.handler) (simpleDomain domain) (w, us)
  rw [ops_withInputs, h] at hexec
  rw [hexec] at hmakes
  refine ⟨_, hmakes, List.filterMap_eq_nil_iff.mpr fun e he => ?_⟩
  obtain ⟨o, ho⟩ := hmakes.of_uses (uses_document (reads_simpleDomain domain).ends) e he
  split
  · cases ho
  · rfl

/-- An event of a domain that cannot be described is the last one. -/
theorem messages_error (ht : type.isTarget = true) {e : Failure} {r : Response}
    (h : (simpleDomain domain).exec (withInputs contents D.ops) {} (w, us) = (.error e, r, w', us')) :
    messages D (.lifecycle user domain type :: ds) w us = [] := by
  obtain ⟨es, hmakes, hnone⟩ := makes_document h
  have hrun : (Dispatch.lifecycle user domain type).run = HandlerM.ofView (simpleDomain domain) >>= fun data =>
      ask (.broadcast user data) := if_pos ht
  unfold messages runOne
  rw [hrun, bind_assoc, (Eff.Makes.bind_error hmakes).events, hnone]

/-- The document is broadcast, before the messages of the other callbacks. -/
theorem messages_ok (ht : type.isTarget = true) {data : Json} {r : Response}
    (h : (simpleDomain domain).exec (withInputs contents D.ops) {} (w, us) = (.ok data, r, w', us')) :
    messages D (.lifecycle user domain type :: ds) w us =
      (user, data) :: messages D ds (D.handler w' (.broadcast user data)).2 us' := by
  obtain ⟨es, hmakes, hnone⟩ := makes_document h
  have hrun : (Dispatch.lifecycle user domain type).run = HandlerM.ofView (simpleDomain domain) >>= fun data =>
      ask (.broadcast user data) := if_pos ht
  have hrest : Eff.Makes (withInputs handlerContents D.handler) (runOne ds) ()
    ((D.handler w' (.broadcast user data)).2, us') _ _ _ _ := Eff.makes_events _ () _
  have hask : Eff.Makes (withInputs handlerContents D.handler) (ask (.broadcast user data)) () (w', us') _ _ () _ :=
    .call _ () (w', us')
  unfold messages
  rw [runOne, hrun, bind_assoc, (hmakes.bind (hask.bind hrest)).events, broadcasts_append, hnone]
  rfl

/-! ## The events -/

theorem messagesUnseen_congr {ds' : List Dispatch} (h : ∀ us, messages D ds w us = messages D ds' w' us) :
    MessagesUnseen D ds w ↔ MessagesUnseen D ds' w' := by
  unfold MessagesUnseen
  simp only [h]

/-- An event of a domain whose state is not known is broadcast when the local holds zero, and not when it holds
eight. -/
theorem stateKnown_of_messagesUnseen (ht : type.isTarget = true)
    (h : MessagesUnseen D (.lifecycle user domain type :: ds) w) : StateKnown D.ops w domain fun _ => True := by
  intro w' hlabelled
  refine ⟨fun hnone => ?_, fun _ _ _ => trivial⟩
  obtain ⟨output, hexec⟩ := exec_simpleDomain_none (r := {}) hlabelled hnone
  obtain ⟨e, he, -⟩ := withState_eight output
  obtain ⟨j, hj⟩ := exists_withState output (s := 0) (by decide)
  have hzero := hexec (Stream'.const 0)
  have height := hexec (Stream'.const 8)
  change _ = ((withState output 0).mapError _, _) at hzero
  change _ = ((withState output 8).mapError _, _) at height
  rw [hj] at hzero
  rw [he] at height
  have hsame := h (Stream'.const 0) (Stream'.const 8)
  rw [messages_ok ht hzero, messages_error ht height] at hsame
  cases hsame

/-- By induction on the callbacks. -/
theorem messagesUnseen_iff (ds : List Dispatch) (w : σ) : MessagesUnseen D ds w ↔ MessagesKnown D w ds := by
  induction ds generalizing w with
  | nil => exact iff_of_true (fun _ _ => rfl) trivial
  | cons d ds ih =>
    cases d with
    | timeout => exact (messagesUnseen_congr fun us => messages_skip rfl).trans (ih w)
    | close => exact iff_of_true (fun us us' => by rw [messages_close, messages_close]) trivial
    | lifecycle user domain type =>
      unfold MessagesKnown
      split_ifs with ht
      · constructor
        · intro h
          refine ⟨stateKnown_of_messagesUnseen ht h, fun data r w' hends => (ih _).mp fun us us' => ?_⟩
          obtain ⟨us1, h1⟩ := hends.onto us
          obtain ⟨us2, h2⟩ := hends.onto us'
          have hsame := h us1 us2
          rw [messages_ok ht h1, messages_ok ht h2] at hsame
          exact (List.cons.inj hsame).2
        · rintro ⟨hknown, hrest⟩ us us'
          rcases hknown.endsWith with ⟨e, r, w', hends⟩ | ⟨data, w', hends, -, -⟩
          · obtain ⟨us1, h1⟩ := hends.always us
            obtain ⟨us2, h2⟩ := hends.always us'
            rw [messages_error ht h1, messages_error ht h2]
          · obtain ⟨us1, h1⟩ := hends.always us
            obtain ⟨us2, h2⟩ := hends.always us'
            rw [messages_ok ht h1, messages_ok ht h2, (ih _).mpr (hrest data {} w' hends) us1 us2]
      · have hrun : (Dispatch.lifecycle user domain type).run = pure () := if_neg ht
        exact (messagesUnseen_congr fun us => messages_skip hrun).trans (ih w)

end

/-- **Uninitialised locals.**  Responses and messages are the same whatever `domain::state` and `domain::autostart`
find in their locals exactly if libvirt fails for no domain whose state, or whose autostart, is then shown. -/
theorem contents_unseen_iff {σ : Type} (L : Linked) (T : Timeouts) (D : Daemon σ) (hdoc : Documented D.ops)
    (hL : Distinguishes L) :
    (∀ (q : Query) (r : Response) (w : σ),
      Eff.Unseen contents D.ops (q.view L T) r w ↔ q.Known L T D.ops r w) ∧
      ∀ (dispatched : List Dispatch) (w : σ), MessagesUnseen D dispatched w ↔ MessagesKnown D w dispatched :=
  ⟨fun q _ _ => q.unseen_iff hdoc hL, messagesUnseen_iff⟩

/-! A host with one domain, whose state libvirt tells or does not tell. -/

def writerLinked : Linked := { plainLinked with stringify := fun j => j.write ++ "\n" }

def vmCall (state : Option ℤ) : (c : Call) → c.Val
  | .virConnectListAllDomains _ => [0]
  | .virDomainGetName _ => some "vm"
  | .virDomainGetState _ => state
  | c => c.failed

def vmDaemon (state : Option ℤ) : Daemon ℚ where
  toSurroundings := emptySurroundings
  handler w
    | .op (.libvirt c) => (.ok (vmCall state c), w)
    | c => refusingDaemon.handler w c

theorem distinguishes_writer : Distinguishes writerLinked := by
  intro k ms heq
  have hlonger : (Json.bool true).write.length < (Json.bool false).write.length := by decide
  have hlt := Json.length_write_lt hlonger k ms
  have hwrite : (Json.obj (Json.insert k (.bool true) ms)).write = (Json.obj (Json.insert k (.bool false) ms)).write :=
    (String.append_left_inj "\n").mp heq
  rw [hwrite] at hlt
  exact lt_irrefl _ hlt

theorem documented_vm : Documented (vmDaemon (some 1)).ops where
  raises w c e h := by cases h
  states w d s h := by
    cases h
    decide

/-- The domain is running. -/
theorem contents_unseen_running :
    Eff.Unseen contents (vmDaemon (some 1)).ops ((Query.index "ann").view writerLinked ⟨60, 15⟩) {} 0 :=
  ((contents_unseen_iff writerLinked ⟨60, 15⟩ (vmDaemon (some 1)) documented_vm distinguishes_writer).1
    (.index "ann") {} 0).mpr fun ds hds => by
      cases hds
      exact fun w' _ => ⟨nofun, fun _ _ _ => trivial⟩

/-- The domain has been undefined since it was listed: the list is one of a domain in some state, or fails. -/
theorem contents_seen_index :
    ((Domains.index writerLinked "ann").exec (withInputs contents (vmDaemon none).ops) {} (0, Stream'.const 0)).1 =
        .ok () ∧
      ((Domains.index writerLinked "ann").exec (withInputs contents (vmDaemon none).ops) {} (0, Stream'.const 8)).1 =
        .error (.exn ⟨.outOfRange, "map::at"⟩) ∧
      ¬ Eff.Unseen contents (vmDaemon none).ops ((Query.index "ann").view writerLinked ⟨60, 15⟩) {} 0 := by
  have hzero : ((Domains.index writerLinked "ann").exec (withInputs contents (vmDaemon none).ops) {}
      (0, Stream'.const 0)).1 = .ok () := rfl
  have height : ((Domains.index writerLinked "ann").exec (withInputs contents (vmDaemon none).ops) {}
      (0, Stream'.const 8)).1 = .error (.exn ⟨.outOfRange, "map::at"⟩) := rfl
  refine ⟨hzero, height, fun h => ?_⟩
  have hsame := (h (Stream'.const 0) (Stream'.const 8)).1
  cases (hzero.symm.trans hsame).trans height

end Webvirtd.App
