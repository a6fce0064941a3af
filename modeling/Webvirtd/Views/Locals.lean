import Webvirtd.Data.Locals
import Webvirtd.Views

/-!
# Views.Locals — what `index`, `show`, `start` and `shutdown` show of uninitialised locals

`Query.unseen_iff`: the response is the same whatever the locals hold exactly if the states are known, and for `show`
the autostart too, unless it is not shown.
-/

namespace Webvirtd.Views

open Lib Virt Http Json Data

/-- The views that show the state of domains. -/
inductive Query
  | index (conn : User)
  | «show» (d : DomainPtr)
  | start (d : DomainPtr)
  | shutdown (d : DomainPtr)

def Query.view (L : Linked) (T : Timeouts) : Query → ViewM Unit
  | .index conn => Domains.index L conn
  | .show d => Domains.show L d
  | .start d => Domains.start L d
  | .shutdown d => Domains.shutdown L T d

section

variable {σ : Type} (L : Linked) (T : Timeouts) (answer : σ → (o : Op) → Op.Res o × σ) (r : Response)

/-- An autostart is shown: the document is read, has none of its own, and can be converted. -/
def AutostartShown (d : DomainPtr) (w : σ) : Prop :=
  let desc := answer w (.libvirt (.virDomainGetXMLDesc d))
  ∃ text, desc.1 = .ok (some text) ∧ at? (Json.ofNode (Xml.child "domain" (L.loadXml text))) ["autostart"] = none ∧
    (converted d (L.loadXml text)).Returns answer r desc.2

/-- `virDomainGetAutostart` does not fail, or the autostart is not shown. -/
def AutostartKnown (d : DomainPtr) (w : σ) : Prop :=
  let autostart := answer w (.libvirt (.virDomainGetAutostart d))
  autostart.1 = .ok none → ¬ AutostartShown L answer r d autostart.2

/-- Each state that is asked for is known, and an autostart that is shown. -/
def Query.Known (w : σ) : Query → Prop
  | .index conn =>
    let domains := answer w (.libvirt (.virConnectListAllDomains conn))
    ∀ ds, domains.1 = .ok ds → StatesKnown answer domains.2 ds
  | .show d => StateKnown answer w d (AutostartKnown L answer r d)
  | .start d =>
    let started := answer w (.libvirt (.virDomainCreate d))
    started.1 = .ok (0 : ℤ) → StateKnown answer started.2 d fun _ => True
  | .shutdown d =>
    ∀ r' w', (Domain.shutdown d T).exec answer r w = (.ok true, r', w') → StateKnown answer w' d fun _ => True

end

/-- The text of an object tells what a boolean member is. -/
def Distinguishes (L : Linked) : Prop :=
  ∀ k ms, L.stringify (.obj (insert k (.bool true) ms)) ≠ L.stringify (.obj (insert k (.bool false) ms))

section

variable {σ : Type} {answer : σ → (o : Op) → Op.Res o × σ} {r : Response} {w : σ} {d : DomainPtr} {β : Type}
  {L : Linked} {T : Timeouts}

theorem plain_respond (L : Linked) (data : Json) (status : Status) : Plain NotRange (respond L data status) :=
  .modify _

theorem unseen_plain {F : Failure → Prop} {α : Type} {m : ViewM α} (hm : Plain F m) (r : Response) (w : σ) :
    Eff.Unseen contents answer m r w := (Eff.EndsWith.of_uses hm.uses rfl).unseen

/-- A call that shows nothing itself. -/
theorem unseen_perform {c : Call} {f : c.Val → ViewM β} :
    Eff.Unseen contents answer (perform c >>= f) r w ↔ ∀ v, (answer w (.libvirt c)).1 = .ok v →
      Eff.Unseen contents answer (f v) r (answer w (.libvirt c)).2 := by
  rw [Eff.unseen_bind_iff (plain_perform (F := fun _ => True) c).uses]
  constructor
  · intro h v hv
    exact h v r _ (makes_perform hv).exec
  · intro h v r' w' hexec
    have hmakes : Eff.Makes answer (perform c) r w _ _ _ _ := Eff.makes_events _ r w
    rw [hexec] at hmakes
    obtain ⟨hv, -, rfl, rfl⟩ := makes_perform_inv hmakes
    exact h v hv

/-- Only the state of a document is in question when nothing but the response follows. -/
theorem unseen_respond_iff (status : Status) :
    Eff.Unseen contents answer (simpleDomain d >>= fun data => respond L data status) r w ↔
      StateKnown answer w d fun _ => True :=
  unseen_simpleDomain_iff (fun _ => .modify _) fun _ _ _ => iff_of_true (unseen_plain (plain_respond L _ _) r _) trivial

/-! ## The autostart -/

/-- What follows the autostart in `show`. -/
def afterAutostart (L : Linked) (d : DomainPtr) (simple : Json) (autostart : Bool) : ViewM Unit := do
  let doc ← Domain.xmlDocument d L
  let output ← ofExcept (merged simple autostart doc) >>= addSizes d
  respond L output .ok

theorem show_eq (L : Linked) (d : DomainPtr) :
    Domains.show L d = simpleDomain d >>= fun simple => Domain.autostart d >>= afterAutostart L d simple := by
  unfold Domains.show afterAutostart
  rw [domain_eq]
  unfold parts
  simp only [bind_assoc, pure_bind]

theorem plain_afterAutostart (L : Linked) (d : DomainPtr) (simple : Json) (autostart : Bool) :
    Plain NotRange (afterAutostart L d simple autostart) := by
  refine .bind (plain_xmlDocument L d) fun doc => .bind ?_ fun output => plain_respond L _ _
  exact .bind (logicErrors_foldlM _ _).plain fun output => plain_addSizes d output

theorem afterAutostart_eq {ms : Members} (hms : Sorted ms) (hdevices : lookup "devices" ms = none) (b : Bool) :
    afterAutostart L d (.obj ms) b = Domain.xmlDocument d L >>= fun doc => converted d doc >>= fun j =>
      respond L (integrate (.obj (insert "autostart" (.bool b) ms)) j) .ok := by
  unfold afterAutostart
  simp only [document_over hms hdevices, bind_map_left]

theorem exec_xmlDocument {text : String} (h : (answer w (.libvirt (.virDomainGetXMLDesc d))).1 = .ok (some text)) :
    (Domain.xmlDocument d L).exec answer r w =
      (.ok (L.loadXml text), r, (answer w (.libvirt (.virDomainGetXMLDesc d))).2) := by
  have hdesc : Eff.Makes answer (Domain.xmlDesc d) r w _ (.ok text) r _ := (makes_perform h).bind_last (.pure text r _)
  exact Eff.exec_bind_ok _ hdesc.exec

theorem text_of_xmlDocument {doc : List Xml} {r' : Response} {w' : σ}
    (h : (Domain.xmlDocument d L).exec answer r w = (.ok doc, r', w')) :
    ∃ text, (answer w (.libvirt (.virDomainGetXMLDesc d))).1 = .ok (some text) ∧ doc = L.loadXml text := by
  have hmakes : Eff.Makes answer (Domain.xmlDocument d L) r w _ _ _ _ := Eff.makes_events _ r w
  rw [h] at hmakes
  obtain ⟨text, _, _, _, _, -, h1, h2⟩ := hmakes.bind_inv
  obtain ⟨-, hdoc, -, -⟩ := h2.pure_inv
  cases hdoc
  obtain ⟨x, _, _, _, _, -, h3, hstring⟩ := h1.bind_inv
  obtain ⟨hx, -, -, -⟩ := makes_perform_inv h3
  cases x with
  | none => cases hstring.exec
  | some y =>
    obtain ⟨-, htext, -, -⟩ := hstring.pure_inv
    cases htext
    exact ⟨text, hx, rfl⟩

/-- The response differs with the autostart exactly if that is shown. -/
theorem afterAutostart_iff (hL : Distinguishes L) {simple : Json} (hbase : Base simple) :
    ((afterAutostart L d simple true).exec answer r w).1 = ((afterAutostart L d simple false).exec answer r w).1 ∧
      ((afterAutostart L d simple true).exec answer r w).2.1 =
        ((afterAutostart L d simple false).exec answer r w).2.1 ↔ ¬ AutostartShown L answer r d w := by
  obtain ⟨ms, rfl, hms, hdevices⟩ := hbase
  rw [afterAutostart_eq hms hdevices, afterAutostart_eq hms hdevices]
  rcases hx : (Domain.xmlDocument d L).exec answer r w with ⟨e | doc, r1, w1⟩
  · rw [Eff.exec_bind_error _ hx, Eff.exec_bind_error _ hx]
    refine iff_of_true ⟨rfl, rfl⟩ ?_
    rintro ⟨text, htext, -⟩
    rw [exec_xmlDocument htext] at hx
    cases hx
  · obtain ⟨text, htext, rfl⟩ := text_of_xmlDocument hx
    rw [exec_xmlDocument htext] at hx
    cases hx
    rw [Eff.exec_bind_ok _ (exec_xmlDocument htext), Eff.exec_bind_ok _ (exec_xmlDocument htext)]
    rcases hy : (converted d (L.loadXml text)).exec answer r (answer w (.libvirt (.virDomainGetXMLDesc d))).2 with
      ⟨e | j, r2, w2⟩
    · rw [Eff.exec_bind_error _ hy, Eff.exec_bind_error _ hy]
      refine iff_of_true ⟨rfl, rfl⟩ ?_
      rintro ⟨text', htext', -, j, hj⟩
      cases htext.symm.trans htext'
      rw [hy] at hj
      cases hj
    · rw [Eff.exec_bind_ok _ hy, Eff.exec_bind_ok _ hy]
      have hj := onlyDevices_converted hy
      have hown := hj.frame "autostart" (by decide)
      rw [integrate_autostart hms hj.sorted, integrate_autostart hms hj.sorted, hown]
      cases hnode : at? (Json.ofNode (Xml.child "domain" (L.loadXml text))) ["autostart"] with
      | some v =>
        refine iff_of_true ⟨rfl, rfl⟩ ?_
        rintro ⟨text', htext', hnone, -⟩
        cases htext.symm.trans htext'
        rw [hnode] at hnone
        cases hnone
      | none =>
        refine iff_of_false (fun hsame => ?_) fun hnot => hnot ⟨text, htext, hnode, j, by rw [hy]⟩
        obtain ⟨jms, rfl, hjms⟩ := hj.sorted
        rw [integrate_obj] at hsame
        exact hL "autostart" (overlay ms jms) ((String.append_right_inj r2.body).mp (congrArg Response.body hsame.2))

theorem unseen_autostart_iff (hL : Distinguishes L) {simple : Json} (hbase : Base simple) :
    Eff.Unseen contents answer (Domain.autostart d >>= afterAutostart L d simple) r w ↔
      AutostartKnown L answer r d w := by
  have hplain := fun b => plain_afterAutostart L d simple b
  show _ ↔ ((answer w (.libvirt (.virDomainGetAutostart d))).1 = .ok none →
    ¬ AutostartShown L answer r d (answer w (.libvirt (.virDomainGetAutostart d))).2)
  rw [← afterAutostart_iff hL hbase]
  cases hauto : (answer w (.libvirt (.virDomainGetAutostart d))).1 with
  | error e => exact iff_of_true (endsWith_readLocal_error hauto).bind_error.unseen fun h => by cases h
  | ok x =>
    cases x with
    | some a =>
      have hends := endsWith_readLocal_ok (r := r) (a := a != (0 : ℤ)) hauto
        (g := fun old (x : Option ℤ) => x.getD old != (0 : ℤ)) fun _ => rfl
      exact iff_of_true (hends.unseen_bind.mpr (unseen_plain (hplain _) r _)) fun h => by cases h
    | none =>
      have hexec : ∀ us : Stream' Int32, (Domain.autostart d >>= afterAutostart L d simple).exec
          (withInputs contents answer) r (w, us) = _ := fun us =>
        (Eff.exec_bind_ok _ (exec_autostart_none hauto)).trans (Eff.exec_withInputs (hplain _).uses r _ us.tail)
      constructor
      · intro h _
        have hone := h (Stream'.const 1) (Stream'.const 0)
        rw [hexec, hexec] at hone
        exact hone
      · intro h us us'
        rw [hexec, hexec]
        have hsame := h rfl
        cases us.head.toInt != 0 with
        | true =>
          cases us'.head.toInt != 0 with
          | true => exact ⟨rfl, rfl⟩
          | false => exact hsame
        | false =>
          cases us'.head.toInt != 0 with
          | true => exact ⟨hsame.1.symm, hsame.2.symm⟩
          | false => exact ⟨rfl, rfl⟩

/-! ## The views -/

theorem unseen_index_iff (hdoc : Documented answer) (conn : User) :
    Eff.Unseen contents answer (Domains.index L conn) r w ↔ (Query.index conn).Known L T answer r w := by
  refine unseen_perform.trans (forall_congr' fun ds => imp_congr_right fun _ => ?_)
  exact unseen_simpleDomains_iff hdoc (fun js => plain_respond L _ _) ds

theorem unseen_show_iff (hdoc : Documented answer) (hL : Distinguishes L) :
    Eff.Unseen contents answer (Domains.show L d) r w ↔ (Query.show d).Known L T answer r w := by
  rw [show_eq]
  refine unseen_simpleDomain_iff (fun simple => ?_) fun simple w' hbase => unseen_autostart_iff hL hbase
  exact .bind (keeps_readLocal hdoc _ _) fun b => (plain_afterAutostart L d simple b).keeps hdoc

theorem unseen_start_iff :
    Eff.Unseen contents answer (Domains.start L d) r w ↔ (Query.start d).Known L T answer r w := by
  unfold Domains.start Domain.start
  rw [bind_assoc, unseen_perform]
  constructor
  · intro h hstarted
    exact (unseen_respond_iff .created).mp (h (0 : ℤ) hstarted)
  · intro h rc hrc
    show Eff.Unseen contents answer (if !(rc == (0 : ℤ)) then _ else _) r _
    split_ifs with hfailed
    · exact unseen_plain (plain_respond L _ _) r _
    · have hzero : rc = (0 : ℤ) := by simpa using hfailed
      rw [hzero] at hrc
      exact (unseen_respond_iff .created).mpr (h hrc)

theorem unseen_shutdown_iff :
    Eff.Unseen contents answer (Domains.shutdown L T d) r w ↔ (Query.shutdown d).Known L T answer r w := by
  have hplain : Plain (fun _ => True) (Eff.tryCatch (some <$> Domain.shutdown d T) fun e =>
      if e.caughtBy .outOfRange then pure none else Eff.throw e) := by
    refine .tryCatch (.map _ (plain_shutdown d T)) (fun e => .ite (.pure _) (.throw trivial)) nofun
  unfold Domains.shutdown
  rw [Eff.unseen_bind_iff hplain.uses]
  constructor
  · intro h r' w' hexec
    have htrue := h (some true) r' w' ?_
    · exact (unseen_respond_iff .ok).mp htrue
    · rw [Eff.exec_tryCatch]
      rw [show (some <$> Domain.shutdown d T).exec answer r w = (.ok (some true), r', w') from
        Eff.exec_bind_ok _ hexec]
  · intro h ok r' w' hexec
    match ok with
    | none => exact unseen_plain (plain_respond L _ _) r' _
    | some false => exact unseen_plain (plain_respond L _ _) r' _
    | some true =>
      refine (unseen_respond_iff .ok).mpr (h r' w' ?_)
      rw [Eff.exec_tryCatch] at hexec
      rcases hx : (Domain.shutdown d T).exec answer r w with ⟨e | b, r1, w1⟩
      · have hmap : (some <$> Domain.shutdown d T).exec answer r w = (.error e, r1, w1) := Eff.exec_bind_error _ hx
        rw [hmap] at hexec
        dsimp only at hexec
        split_ifs at hexec
        · cases hexec
        · cases hexec
      · have hmap : (some <$> Domain.shutdown d T).exec answer r w = (.ok (some b), r1, w1) := Eff.exec_bind_ok _ hx
        rw [hmap] at hexec
        cases hexec
        rfl

/-- The response is the same whatever the locals hold exactly if what is asked for is known. -/
theorem Query.unseen_iff (hdoc : Documented answer) (hL : Distinguishes L) (q : Query) :
    Eff.Unseen contents answer (q.view L T) r w ↔ q.Known L T answer r w := by
  cases q with
  | index conn => exact unseen_index_iff hdoc conn
  | «show» d => exact unseen_show_iff hdoc hL
  | start d => exact unseen_start_iff
  | shutdown d => exact unseen_shutdown_iff

end

end Webvirtd.Views
