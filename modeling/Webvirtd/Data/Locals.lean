import Webvirtd.Data.Overlay
import Webvirtd.Virt.Locals

/-!
# Data.Locals — what the documents show of uninitialised locals

`simple_domain` shows the contents of the local of `domain::state` exactly if `virDomainGetState` fails once it is
reached (`unseen_simpleDomain_iff`): zero is a state, and eight is none.  For a list the same holds of each domain up
to the first exception (`unseen_simpleDomains_iff`).  What `data::domain` does after it throws no `out_of_range` of
its own (`plain_addSizes`).
-/

namespace Webvirtd.Data

open Lib Virt Json

/-! ## Before the state is asked for -/

/-- What `simple_domain` reads first. -/
def labels (d : DomainPtr) : ViewM Json := do
  let id ← Domain.id d
  let output := Json.empty.set "id" (.int id)
  let output := output.set "name" (Json.empty.set "text" (.str (← Domain.name d)))
  let output := output.set "title" (Json.empty.set "text" (.str (← Domain.title d)))
  return output.set "description" (Json.empty.set "text" (.str (← Domain.description d)))

/-- What it adds. -/
def withState (output : Json) (stateId : ℤ) : Except Exn Json :=
  (stateString stateId).map fun text =>
    output.set "state" (Json.empty.set "attrib" ((Json.empty.set "id" (.int stateId)).set "string" (.str text)))

theorem simpleDomain_eq (d : DomainPtr) :
    simpleDomain d =
      labels d >>= fun output => Domain.state d >>= fun stateId => ofExcept (withState output stateId) := by
  unfold labels simpleDomain withState
  simp only [bind_assoc, pure_bind]
  refine bind_congr fun id => bind_congr fun name => bind_congr fun title => bind_congr fun description => ?_
  refine bind_congr fun stateId => ?_
  cases stateString stateId with
  | ok text => rfl
  | error e => rfl

section

variable {σ : Type} (answer : σ → (o : Op) → Op.Res o × σ) (w : σ) (d : DomainPtr)

/-- The id, the name, the title and the description of `d` are read, and `w'` is what follows. -/
def Labelled (w' : σ) : Prop :=
  let id := answer w (.libvirt (.virDomainGetID d))
  let name := answer id.2 (.libvirt (.virDomainGetName d))
  let title := answer name.2 (.libvirt (.virDomainGetMetadata d .title))
  let description := answer title.2 (.libvirt (.virDomainGetMetadata d .description))
  (∃ i, id.1 = .ok i) ∧ (∃ s, name.1 = .ok (some s)) ∧ (∃ s, title.1 = .ok s) ∧ (∃ s, description.1 = .ok s) ∧
    description.2 = w'

/-- If `virDomainGetState` is reached it does not fail, and after a state `P` holds. -/
def StateKnown (P : σ → Prop) : Prop :=
  ∀ w', Labelled answer w d w' →
    let state := answer w' (.libvirt (.virDomainGetState d))
    state.1 ≠ .ok none ∧ ∀ s : ℤ, state.1 = .ok (some s) → 0 ≤ s ∧ s ≤ 7 → P state.2

/-- The same for all of the domains of a list, one after the other. -/
def StatesKnown (w : σ) : List DomainPtr → Prop
  | [] => True
  | d :: ds => StateKnown answer w d fun w' => StatesKnown w' ds

end

section

variable {σ : Type} {answer : σ → (o : Op) → Op.Res o × σ} {w w' : σ} {d : DomainPtr} {r r' : Http.Response}
  {j : Json} {β : Type}

/-- What `data::domain` puts its document over. -/
def Base (j : Json) : Prop := ∃ ms, j = .obj ms ∧ Sorted ms ∧ lookup "devices" ms = none

theorem exec_labels (h : Labelled answer w d w') : ∃ output, (labels d).exec answer r w = (.ok output, r, w') := by
  obtain ⟨⟨i, hi⟩, ⟨s, hs⟩, ⟨t, ht⟩, ⟨t', ht'⟩, rfl⟩ := h
  have hname : Eff.Makes answer (Domain.name d) r _ _ (.ok s) r _ := (makes_perform hs).bind_last (.pure s r _)
  unfold labels Domain.id Domain.title Domain.description Domain.metadata
  rw [Eff.exec_bind_ok _ (makes_perform hi).exec, Eff.exec_bind_ok _ hname.exec,
    Eff.exec_bind_ok _ (makes_perform ht).exec, Eff.exec_bind_ok _ (makes_perform ht').exec]
  exact ⟨_, rfl⟩

/-- All that is read was read, and the output is a base. -/
theorem labelled_of_exec (h : (labels d).exec answer r w = (.ok j, r', w')) :
    Labelled answer w d w' ∧ r' = r ∧ Base j := by
  have hmakes : Eff.Makes answer (labels d) r w _ _ _ _ := Eff.makes_events _ r w
  rw [h] at hmakes
  obtain ⟨i, _, _, _, _, -, h1, hafter1⟩ := hmakes.bind_inv
  obtain ⟨hi, -, rfl, rfl⟩ := makes_perform_inv h1
  obtain ⟨s, _, _, _, _, -, h2, hafter2⟩ := hafter1.bind_inv
  obtain ⟨x, _, _, _, _, -, h3, hstring⟩ := h2.bind_inv
  obtain ⟨hx, -, rfl, rfl⟩ := makes_perform_inv h3
  obtain ⟨t, _, _, _, _, -, h4, hafter4⟩ := hafter2.bind_inv
  obtain ⟨t', _, _, _, _, -, h5, hafter5⟩ := hafter4.bind_inv
  obtain ⟨-, hj, rfl, rfl⟩ := hafter5.pure_inv
  cases hj
  cases x with
  | none => cases hstring.exec
  | some y =>
    obtain ⟨-, -, rfl, rfl⟩ := hstring.pure_inv
    obtain ⟨ht, -, rfl, rfl⟩ := makes_perform_inv h4
    obtain ⟨ht', -, rfl, rfl⟩ := makes_perform_inv h5
    refine ⟨⟨⟨i, hi⟩, ⟨y, hx⟩, ⟨t, ht⟩, ⟨t', ht'⟩, rfl⟩, rfl, _, rfl, ?_, rfl⟩
    exact (((sorted_nil.insert _ _).insert _ _).insert _ _).insert _ _

theorem base_withState {output : Json} {s : ℤ} (h : Base output) (hj : withState output s = .ok j) : Base j := by
  obtain ⟨ms, rfl, hm, hdevices⟩ := h
  unfold withState at hj
  cases ht : stateString s with
  | error e =>
    rw [ht] at hj
    cases hj
  | ok text =>
    rw [ht] at hj
    cases hj
    exact ⟨_, rfl, hm.insert _ _, (lookup_insert_of_ne (by decide) _ _).trans hdevices⟩

theorem plain_labels (d : DomainPtr) : Plain NotRange (labels d) := by
  refine .bind (plain_perform _) fun id => .bind (.bind (plain_perform _) plain_fromCString) fun name => ?_
  exact .bind (plain_perform _) fun title => .bind (plain_perform _) fun description => .pure _

/-! ## The state -/

theorem withState_eight (output : Json) : ∃ e, withState output 8 = .error e ∧ ¬ NotRange (.exn e) :=
  ⟨⟨.outOfRange, "map::at"⟩, rfl, nofun⟩

theorem exists_withState (output : Json) {s : ℤ} (h : 0 ≤ s ∧ s ≤ 7) : ∃ j, withState output s = .ok j := by
  obtain ⟨text, ht⟩ := stateString_ok_iff.mpr h
  unfold withState
  rw [ht]
  exact ⟨_, rfl⟩

theorem le_of_withState {output : Json} {s : ℤ} (h : withState output s = .ok j) : 0 ≤ s ∧ s ≤ 7 := by
  unfold withState at h
  cases ht : stateString s with
  | ok text => exact stateString_ok_iff.mp ⟨text, ht⟩
  | error e =>
    rw [ht] at h
    cases h

/-- `virDomainGetState` fails: the state is what the local holds. -/
theorem exec_simpleDomain_none (hlabelled : Labelled answer w d w')
    (hnone : (answer w' (.libvirt (.virDomainGetState d))).1 = .ok none) : ∃ output, ∀ us,
      (simpleDomain d).exec (withInputs contents answer) r (w, us) = ((withState output us.head.toInt).mapError .exn, r,
        (answer w' (.libvirt (.virDomainGetState d))).2, us.tail) := by
  obtain ⟨output, hexec⟩ := exec_labels (r := r) hlabelled
  refine ⟨output, fun us => ?_⟩
  have hlabels : (labels d).exec (withInputs contents answer) r (w, us) = _ :=
    Eff.exec_withInputs (plain_labels d).uses r w us
  rw [hexec] at hlabels
  rw [simpleDomain_eq, Eff.exec_bind_ok _ hlabels, Eff.exec_bind_ok _ (exec_state_none hnone)]
  cases withState output us.head.toInt with
  | ok j => rfl
  | error e => rfl

/-- It succeeds: the state is what it gives. -/
theorem endsWith_simpleDomain {s : ℤ} (hlabelled : Labelled answer w d w')
    (hs : (answer w' (.libvirt (.virDomainGetState d))).1 = .ok (some s)) : ∃ output, Base output ∧
      Eff.EndsWith contents answer (simpleDomain d) r w ((withState output s).mapError .exn) r
        (answer w' (.libvirt (.virDomainGetState d))).2 := by
  obtain ⟨output, hexec⟩ := exec_labels (r := r) hlabelled
  obtain ⟨-, -, hbase⟩ := labelled_of_exec hexec
  refine ⟨output, hbase, ?_⟩
  rw [simpleDomain_eq]
  exact (Eff.EndsWith.of_uses (plain_labels d).uses hexec).bind
    ((endsWith_readLocal_ok hs fun _ => rfl).bind (endsWith_ofExcept _ r _))

/-- If the state is known, the document does not depend on what the local holds. -/
theorem StateKnown.endsWith {P : σ → Prop} (h : StateKnown answer w d P) :
    (∃ e r' w', Eff.EndsWith contents answer (simpleDomain d) r w (.error e) r' w') ∨
      ∃ j w', Eff.EndsWith contents answer (simpleDomain d) r w (.ok j) r w' ∧ Base j ∧ P w' := by
  rcases hexec : (labels d).exec answer r w with ⟨e | output, r', w'⟩
  · refine .inl ⟨e, r', w', ?_⟩
    rw [simpleDomain_eq]
    exact (Eff.EndsWith.of_uses (plain_labels d).uses hexec).bind_error
  · obtain ⟨hlabelled, rfl, -⟩ := labelled_of_exec hexec
    obtain ⟨hknown, hP⟩ := h w' hlabelled
    cases hstate : (answer w' (.libvirt (.virDomainGetState d))).1 with
    | error e =>
      refine .inl ⟨.exn e, r', (answer w' (.libvirt (.virDomainGetState d))).2, ?_⟩
      rw [simpleDomain_eq]
      exact (Eff.EndsWith.of_uses (plain_labels d).uses hexec).bind (endsWith_readLocal_error hstate).bind_error
    | ok x =>
      cases x with
      | none => exact absurd hstate hknown
      | some s =>
        obtain ⟨output, hbase, hends⟩ := endsWith_simpleDomain (r := r') hlabelled hstate
        cases hj : withState output s with
        | error e =>
          rw [hj] at hends
          exact .inl ⟨_, _, _, hends⟩
        | ok j =>
          rw [hj] at hends
          exact .inr ⟨j, _, hends, base_withState hbase hj, hP s hstate (le_of_withState hj)⟩

/-- What goes on after `simple_domain` leaves no `out_of_range` while the locals hold zero: then contents are shown
exactly if the state is not known, or by what goes on. -/
theorem unseen_simpleDomain_iff {P : σ → Prop} {k : Json → ViewM β}
    (hkeeps : ∀ j, Eff.Keeps (withInputs contents answer) Zeros NotRange (k j))
    (hk : ∀ j w, Base j → (Eff.Unseen contents answer (k j) r w ↔ P w)) :
    Eff.Unseen contents answer (simpleDomain d >>= k) r w ↔ StateKnown answer w d P := by
  constructor
  · intro h w' hlabelled
    refine ⟨fun hnone => ?_, fun s hs hvalid => ?_⟩
    · -- with zeros the state is `None`, with eights there is none
      obtain ⟨output, hexec⟩ := exec_simpleDomain_none (r := r) hlabelled hnone
      obtain ⟨e, he, hrange⟩ := withState_eight output
      obtain ⟨j, hj⟩ := exists_withState output (s := 0) (by decide)
      have hzero := hexec (Stream'.const 0)
      have height := hexec (Stream'.const 8)
      change _ = ((withState output 0).mapError _, _) at hzero
      change _ = ((withState output 8).mapError _, _) at height
      rw [hj] at hzero
      rw [he] at height
      have hsame := (h (Stream'.const 0) (Stream'.const 8)).1
      rw [Eff.exec_bind_ok _ hzero, Eff.exec_bind_error _ height] at hsame
      exact hrange ((hkeeps j r (_, (Stream'.const 0).tail) (Stream'.tail_const 0)).2 (.exn e) hsame).1
    · obtain ⟨output, hbase, hends⟩ := endsWith_simpleDomain (r := r) hlabelled hs
      obtain ⟨j, hj⟩ := exists_withState output hvalid
      rw [hj] at hends
      exact (hk j _ (base_withState hbase hj)).mp (hends.unseen_bind.mp h)
  · intro h
    rcases h.endsWith (r := r) with ⟨e, r', w', hends⟩ | ⟨j, w', hends, hj, hP⟩
    · exact hends.bind_error.unseen
    · exact hends.unseen_bind.mpr ((hk j w' hj).mpr hP)

theorem keeps_state (hdoc : Documented answer) :
    Eff.Triple (withInputs contents answer) Zeros (Domain.state d) (fun s w => (0 ≤ s ∧ s ≤ 7) ∧ Zeros w)
      (fun e w => NotRange e ∧ Zeros w) := by
  rintro r ⟨w, us⟩ hus
  obtain rfl : us = Stream'.const 0 := hus
  rw [state_eq, exec_readLocal]
  cases hstate : (answer w (.libvirt (.virDomainGetState d))).1 with
  | error e =>
    refine ⟨nofun, fun x hx => ?_⟩
    cases hx
    exact ⟨notRange_of_raised (hdoc.raises w _ e hstate), rfl⟩
  | ok x =>
    refine ⟨fun s hs => ?_, nofun⟩
    cases hs
    cases x with
    | none => exact ⟨show (0 : ℤ) ≤ 0 ∧ (0 : ℤ) ≤ 7 by decide, rfl⟩
    | some s => exact ⟨hdoc.states w d s hstate, rfl⟩

theorem keeps_simpleDomain (hdoc : Documented answer) (d : DomainPtr) :
    Eff.Keeps (withInputs contents answer) Zeros NotRange (simpleDomain d) := by
  rw [simpleDomain_eq]
  refine .bind ((plain_labels d).keeps hdoc) fun output => Eff.Triple.bind (keeps_state hdoc) fun s => ?_
  rintro r w ⟨hvalid, hw⟩
  obtain ⟨j, hj⟩ := exists_withState output hvalid
  rw [hj]
  exact ⟨fun _ _ => hw, nofun⟩

theorem keeps_simpleDomains (hdoc : Documented answer) (ds : List DomainPtr) :
    Eff.Keeps (withInputs contents answer) Zeros NotRange (simpleDomains ds) := by
  induction ds with
  | nil => exact .pure _
  | cons d ds ih => exact .bind (keeps_simpleDomain hdoc d) fun j => .bind ih fun js => .pure _

/-- A list of documents, by induction on the domains. -/
theorem unseen_simpleDomains_iff (hdoc : Documented answer) {k : List Json → ViewM β} (hk : ∀ js, Plain NotRange (k js))
    (ds : List DomainPtr) :
    Eff.Unseen contents answer (simpleDomains ds >>= k) r w ↔ StatesKnown answer w ds := by
  induction ds generalizing k w with
  | nil =>
    refine iff_of_true ?_ trivial
    exact (Eff.EndsWith.of_uses (hk []).uses rfl).unseen
  | cons d ds ih =>
    unfold simpleDomains StatesKnown
    simp only [bind_assoc, pure_bind]
    refine unseen_simpleDomain_iff (fun j => ?_) fun j w' _ => ih fun js => hk (j :: js)
    exact .bind (keeps_simpleDomains hdoc ds) fun js => (hk (j :: js)).keeps hdoc

end

/-! ## What the passes throw -/

/-- Nothing but the logic errors of jsoncpp. -/
def LogicErrors {α : Type} (x : Except Exn α) : Prop := ∀ e, x = .error e → e.cls = .jsonLogicError

theorem LogicErrors.bind {α β : Type} {x : Except Exn α} {f : α → Except Exn β} (hx : LogicErrors x)
    (hf : ∀ a, LogicErrors (f a)) : LogicErrors (x >>= f) := by
  intro e he
  cases x with
  | error e' =>
    cases he
    exact hx _ rfl
  | ok a => exact hf a e he

theorem logicErrors_ok {α : Type} (a : α) : LogicErrors (.ok a : Except Exn α) := nofun

theorem logicErrors_index (j : Json) (k : String) : LogicErrors (j.index k) := by
  intro e he
  cases j with
  | null => cases he
  | obj ms =>
    cases hl : lookup k ms with
    | none =>
      rw [index_of_not_lookup hl] at he
      cases he
    | some v =>
      rw [index_of_lookup hl] at he
      cases he
  | _ => cases he; rfl

theorem logicErrors_isMember (j : Json) (k : String) : LogicErrors (j.isMember k) := by
  intro e he
  cases j with
  | null => cases he
  | obj ms => cases he
  | _ => cases he; rfl

theorem logicErrors_asString (j : Json) : LogicErrors j.asString := by
  intro e he
  cases j with
  | arr xs => cases he; rfl
  | obj ms => cases he; rfl
  | _ => cases he

theorem logicErrors_path (j : Json) (ks : List String) : LogicErrors (j.path ks) := by
  induction ks generalizing j with
  | nil => exact logicErrors_ok _
  | cons k ks ih =>
    exact (logicErrors_index j k).bind fun p => (ih p.2).bind fun q => logicErrors_ok _

theorem logicErrors_assign (j : Json) (ks : List String) (x : Json) : LogicErrors (j.assign ks x) := by
  induction ks generalizing j with
  | nil => exact logicErrors_ok _
  | cons k ks ih =>
    exact (logicErrors_index j k).bind fun p => (ih p.2).bind fun q => logicErrors_ok _

theorem logicErrors_wrapArray (j : Json) (k : String) : LogicErrors (wrapArray j k) := by
  refine (logicErrors_index j _).bind fun p => (logicErrors_isMember p.2 k).bind fun found => ?_
  cases found with
  | false => exact logicErrors_ok _
  | true =>
    refine (logicErrors_index p.2 k).bind fun q => ?_
    show LogicErrors (if _ then _ else _)
    split_ifs
    · exact logicErrors_ok _
    · exact logicErrors_ok _

theorem logicErrors_foldlM (j : Json) (keys : List String) : LogicErrors (keys.foldlM wrapArray j) := by
  induction keys generalizing j with
  | nil => exact logicErrors_ok _
  | cons k keys ih =>
    rw [List.foldlM_cons]
    exact (logicErrors_wrapArray j k).bind ih

theorem LogicErrors.plain {α : Type} {x : Except Exn α} (h : LogicErrors x) : Plain NotRange (ofExcept x) := by
  refine plain_ofExcept fun e he hcls => ?_
  rw [h e he] at hcls
  cases hcls

theorem plain_addBlockInfo (d : DomainPtr) (disk : Json) : Plain NotRange (addBlockInfo d disk) := by
  refine .bind (logicErrors_path _ _).plain fun p => .bind (logicErrors_asString _).plain fun device => ?_
  show Plain NotRange (if _ then _ else _)
  split_ifs
  · exact .pure _
  · refine .bind (logicErrors_path _ _).plain fun q => .bind (logicErrors_asString _).plain fun dev => ?_
    exact .bind (plain_perform _) fun info => (logicErrors_assign _ _ _).plain

theorem plain_addBlockInfos (d : DomainPtr) (disks : List Json) : Plain NotRange (addBlockInfos d disks) := by
  induction disks with
  | nil => exact .pure _
  | cons disk disks ih => exact .bind (plain_addBlockInfo d disk) fun _ => .bind ih fun _ => .pure _

theorem plain_addSizes (d : DomainPtr) (output : Json) : Plain NotRange (addSizes d output) := by
  refine .bind (logicErrors_index _ _).plain fun p => .bind (logicErrors_isMember _ _).plain fun found => ?_
  cases found with
  | false => exact .pure _
  | true =>
    refine .bind (logicErrors_index _ _).plain fun q => ?_
    obtain ⟨devices, disks⟩ := q
    cases disks with
    | arr xs => exact .bind (plain_addBlockInfos d xs) fun _ => .pure _
    | _ => exact .pure _

end Webvirtd.Data
