import Webvirtd.Util.Elements
import Webvirtd.Views
import Webvirtd.Virt.History

/-!
# Views.Bootmenu — what `bootmenu` does to the definition of a domain

The request removes the `bootmenu` element of the `os` element and appends a new one, which has nothing but the
flag.  `ChangesFlag` is the contract: nothing else of the definition changes, and of two requests the second one
decides.  It is kept exactly when the element that is removed had nothing but the flag either (`changesFlag_iff`).
-/

namespace Webvirtd.Views.Domains

open Lib Virt Http Xml

/-- The flag that the request sets. -/
def flag (request : Request) : String := if request.method = .post then "yes" else "no"

/-- The document that the request makes of the one there is. -/
def changed (request : Request) (doc : List Xml) : List Xml := setOs (setBootmenu (flag request)) doc

def otherAttributes (x : Xml) : List (String × String) := x.attributes.filter fun a => a.1 ≠ "enable"

/-- Up to the order of its children, `os'` is `os` with one boot menu: the one there was, or an empty one, with the
flag set. -/
structure OnlyFlag (enabled : String) (os os' : Xml) : Prop where
  name : os'.name = os.name
  attributes : os'.attributes = os.attributes
  menu : ∃ b, b.name = "bootmenu" ∧ b.attr "enable" = some enabled ∧
    otherAttributes b = (named "bootmenu" os.children).flatMap otherAttributes ∧
    b.children = (named "bootmenu" os.children).flatMap Xml.children ∧
    os'.children.Perm ((os.children.filter fun c => c.name ≠ "bootmenu") ++ [b])

/-- The `os` elements of the domains are related by `P`, and around them the documents are the same. -/
def AtOs (P : Xml → Xml → Prop) (doc doc' : List Xml) : Prop :=
  ∃ pre post as before after os os', doc = pre ++ .elem "domain" as (before ++ os :: after) :: post ∧
    doc' = pre ++ .elem "domain" as (before ++ os' :: after) :: post ∧ osOf doc = some os ∧ osOf doc' = some os' ∧
    P os os'

/-- Whenever libvirt describes the domain as `xml`, the request hands `doc` to `virDomainDefineXML`, however documents
are saved. -/
def Hands (L : Linked) (conn : User) (d : DomainPtr) (request : Request) (xml : String) (doc : List Xml) : Prop :=
  ∀ (σ : Type) (answer : σ → (o : Op) → Op.Res o × σ) (r : Response) (w : σ),
    (answer w (.libvirt (.virDomainGetXMLDesc d))).1 = .ok (some xml) →
      ∀ save : List Xml → String, Called ((bootmenu { L with saveXml := save } conn d request).events answer r w)
        (.virDomainDefineXML conn (cStr (save doc)))

/-- The request on a domain with the description `xml` changes the flag only, in `doc`. -/
structure ChangesFlag (L : Linked) (conn : User) (d : DomainPtr) (request : Request) (xml : String)
    (doc : List Xml) : Prop where
  hands : Hands L conn d request xml doc
  onlyFlag : AtOs (OnlyFlag (flag request)) (L.loadXml xml) doc
  idempotent : ∀ xml', L.loadXml xml' = doc → Hands L conn d request xml' doc
  last : ∀ xml' request', L.loadXml xml' = doc →
    ∃ doc', Hands L conn d request' xml doc' ∧ Hands L conn d request' xml' doc'
  reports : ∀ (σ : Type) (answer : σ → (o : Op) → Op.Res o × σ) (r r' : Response) (w w' : σ),
    (answer w (.libvirt (.virDomainGetXMLDesc d))).1 = .ok (some xml) →
      (bootmenu L conn d request).exec answer r w = (.ok (), r', w') → r'.result = .ok →
        r'.body = r.body ++ L.stringify (Json.ofNode (osOf doc))

/-! ## The document -/

section

variable {doc : List Xml} {os : Xml} {f g : Xml → Xml}

/-- Where the `os` element of the domain is. -/
theorem exists_of_osOf (h : osOf doc = some os) :
    ∃ pre post as before after oas ocs, os = .elem "os" oas ocs ∧
      doc = pre ++ .elem "domain" as (before ++ os :: after) :: post ∧ child "domain" pre = none ∧
      child "os" before = none := by
  unfold osOf at h
  obtain ⟨domain, hdomain, hos⟩ := Option.bind_eq_some_iff.mp h
  obtain ⟨pre, post, as, ds, rfl, rfl, hpre⟩ := exists_of_child hdomain
  obtain ⟨before, after, oas, ocs, rfl, hds, hbefore⟩ := exists_of_child hos
  have hds : ds = before ++ .elem "os" oas ocs :: after := hds
  exact ⟨pre, post, as, before, after, oas, ocs, rfl, by rw [hds], hpre, hbefore⟩

section

variable {pre post before after ocs : List Xml} {as oas : List (String × String)}

theorem osOf_append (hpre : child "domain" pre = none) (hbefore : child "os" before = none) :
    osOf (pre ++ .elem "domain" as (before ++ .elem "os" oas ocs :: after) :: post) = some (.elem "os" oas ocs) := by
  unfold osOf
  rw [child_append hpre, child, if_pos rfl]
  show child "os" (before ++ _) = _
  rw [child_append hbefore, child, if_pos rfl]

theorem setOs_append (hpre : child "domain" pre = none) (hbefore : child "os" before = none) :
    setOs f (pre ++ .elem "domain" as (before ++ .elem "os" oas ocs :: after) :: post) =
      pre ++ .elem "domain" as (before ++ f (.elem "os" oas ocs) :: after) :: post := by
  unfold setOs
  rw [updateChild_append hpre, updateChild, if_pos rfl]
  show pre ++ .elem "domain" as (updateChild "os" f (before ++ _)) :: post = _
  rw [updateChild_append hbefore, updateChild, if_pos rfl]

end

theorem osOf_setOs (h : osOf doc = some os) (hf : ∃ oas ocs, f os = .elem "os" oas ocs) :
    osOf (setOs f doc) = some (f os) := by
  obtain ⟨pre, post, as, before, after, oas, ocs, rfl, rfl, hpre, hbefore⟩ := exists_of_osOf h
  obtain ⟨oas', ocs', hos'⟩ := hf
  rw [setOs_append hpre hbefore, hos']
  exact osOf_append hpre hbefore

/-- The `os` element is changed in its place. -/
theorem atOs_setOs {P : Xml → Xml → Prop} (h : osOf doc = some os) (hf : ∃ oas ocs, f os = .elem "os" oas ocs)
    (hP : P os (f os)) : AtOs P doc (setOs f doc) := by
  have hos' := osOf_setOs h hf
  obtain ⟨pre, post, as, before, after, oas, ocs, rfl, rfl, hpre, hbefore⟩ := exists_of_osOf h
  exact ⟨pre, post, as, before, after, _, _, rfl, setOs_append hpre hbefore, h, hos', hP⟩

theorem setOs_setOs (h : osOf doc = some os) (hf : ∃ oas ocs, f os = .elem "os" oas ocs) (hg : g (f os) = g os) :
    setOs g (setOs f doc) = setOs g doc := by
  obtain ⟨pre, post, as, before, after, oas, ocs, rfl, rfl, hpre, hbefore⟩ := exists_of_osOf h
  obtain ⟨oas', ocs', hos'⟩ := hf
  rw [setOs_append hpre hbefore, hos', setOs_append hpre hbefore, setOs_append hpre hbefore, ← hos', hg]

end

/-! ## The `os` element -/

/-- The element that is appended. -/
def bootmenuElement (enabled : String) : Xml := .elem "bootmenu" [("enable", enabled)] []

section

variable {n v : String} {as : List (String × String)} {cs : List Xml}

theorem setBootmenu_elem : setBootmenu v (.elem n as cs) =
    .elem n as (Xml.removeChild "bootmenu" cs ++ [bootmenuElement v]) := rfl

theorem child_removeChild (h : (named "bootmenu" cs).length ≤ 1) :
    child "bootmenu" (Xml.removeChild "bootmenu" cs) = none := by
  have hk : "bootmenu" ≠ "" := by decide
  rw [child_eq_none_iff hk, removeChild_eq_filter hk h, named, List.filter_filter, List.filter_eq_nil_iff]
  intro c _
  simp

/-- A flag that is set again. -/
theorem setBootmenu_setBootmenu (h : (named "bootmenu" cs).length ≤ 1) (v' : String) :
    setBootmenu v' (setBootmenu v (.elem n as cs)) = setBootmenu v' (.elem n as cs) := by
  rw [setBootmenu_elem, setBootmenu_elem, setBootmenu_elem, removeChild_append (child_removeChild h)]
  have hnew : Xml.removeChild "bootmenu" [bootmenuElement v] = [] := if_pos rfl
  rw [hnew, List.append_nil]

theorem onlyFlag_setBootmenu_iff (h : (named "bootmenu" cs).length ≤ 1) :
    OnlyFlag v (.elem n as cs) (setBootmenu v (.elem n as cs)) ↔
      ∀ b ∈ named "bootmenu" cs, otherAttributes b = [] ∧ b.children = [] := by
  have hchildren : (setBootmenu v (.elem n as cs)).children =
      (cs.filter fun c => c.name ≠ "bootmenu") ++ [bootmenuElement v] := by
    rw [← removeChild_eq_filter (by decide) h]
    rfl
  have hother : otherAttributes (bootmenuElement v) = [] := rfl
  constructor
  · rintro ⟨-, -, b, -, -, hattributes, hbelow, hperm⟩ old hold
    rw [hchildren] at hperm
    have hb : bootmenuElement v = b :=
      List.singleton_perm_singleton.mp ((List.perm_append_left_iff _).mp hperm)
    rw [← hb, hother] at hattributes
    rw [← hb] at hbelow
    exact ⟨List.flatMap_eq_nil_iff.mp hattributes.symm old hold, List.flatMap_eq_nil_iff.mp hbelow.symm old hold⟩
  · intro hold
    refine ⟨rfl, rfl, bootmenuElement v, rfl, rfl, ?_, ?_, ?_⟩
    · exact (List.flatMap_eq_nil_iff.mpr fun b hb => (hold b hb).1).symm
    · exact (List.flatMap_eq_nil_iff.mpr fun b hb => (hold b hb).2).symm
    · rw [hchildren]
      exact .rfl

end

/-! ## The view -/

section

variable {σ : Type} {answer : σ → (o : Op) → Op.Res o × σ} {L : Linked} {conn : User} {d : DomainPtr}
  {request : Request} {r : Response} {w : σ} {xml : String}

/-- The surroundings after the description has been read. -/
def described (answer : σ → (o : Op) → Op.Res o × σ) (d : DomainPtr) (w : σ) : σ :=
  (answer w (.libvirt (.virDomainGetXMLDesc d))).2

/-- The call that defines the changed document. -/
def defineCall (L : Linked) (conn : User) (request : Request) (xml : String) : Call :=
  .virDomainDefineXML conn (cStr (L.saveXml (changed request (L.loadXml xml))))

theorem makes_xmlDocument (h : (answer w (.libvirt (.virDomainGetXMLDesc d))).1 = .ok (some xml)) :
    Eff.Makes answer (Domain.xmlDocument d L) r w [⟨.libvirt (.virDomainGetXMLDesc d), .ok (some xml)⟩]
      (.ok (L.loadXml xml)) r (described answer d w) := by
  have hdesc : Eff.Makes answer (Domain.xmlDesc d) r w _ (.ok xml) r _ :=
    (makes_perform h).bind_last (.pure xml r _)
  exact hdesc.bind_last (.pure _ r _)

/-- What the view answers to the result of the call. -/
def redefinedResponse (L : Linked) (doc : List Xml) (r : Response) : Option DomainPtr → Response
  | none => r.setResponse (L.stringify (Json.error "Unable to replace domain XML")) .internalServerError
  | some _ => r.setResponse (L.stringify (Json.ofNode (osOf doc))) .ok

theorem makes_bootmenu (h : (answer w (.libvirt (.virDomainGetXMLDesc d))).1 = .ok (some xml))
    {redefined : Option DomainPtr}
    (hdefine : (answer (described answer d w) (.libvirt (defineCall L conn request xml))).1 = .ok redefined) :
    Eff.Makes answer (bootmenu L conn d request) r w
      [⟨.libvirt (.virDomainGetXMLDesc d), .ok (some xml)⟩, ⟨.libvirt (defineCall L conn request xml), .ok redefined⟩]
      (.ok ()) (redefinedResponse L (changed request (L.loadXml xml)) r redefined)
      (answer (described answer d w) (.libvirt (defineCall L conn request xml))).2 := by
  refine (makes_xmlDocument h).bind ((makes_perform hdefine).bind_last ?_)
  cases redefined with
  | none => exact .modify _ r _
  | some _ => exact .modify _ r _

theorem makes_bootmenu_error (h : (answer w (.libvirt (.virDomainGetXMLDesc d))).1 = .ok (some xml)) {e : Exn}
    (hdefine : (answer (described answer d w) (.libvirt (defineCall L conn request xml))).1 = .error e) :
    Eff.Makes answer (bootmenu L conn d request) r w
      [⟨.libvirt (.virDomainGetXMLDesc d), .ok (some xml)⟩, ⟨.libvirt (defineCall L conn request xml), .error e⟩]
      (.error (.exn e)) r (answer (described answer d w) (.libvirt (defineCall L conn request xml))).2 :=
  (makes_xmlDocument h).bind (makes_perform_error hdefine).bind_error

theorem hands_changed (L : Linked) (conn : User) (d : DomainPtr) (request : Request) (xml : String) :
    Hands L conn d request xml (changed request (L.loadXml xml)) := by
  intro σ answer r w h save
  cases hdefine : (answer (described answer d w)
      (.libvirt (defineCall { L with saveXml := save } conn request xml))).1 with
  | error e =>
    rw [(makes_bootmenu_error h hdefine).events]
    exact ⟨_, List.mem_cons_of_mem _ (List.mem_singleton_self _), rfl⟩
  | ok redefined =>
    rw [(makes_bootmenu h hdefine).events]
    exact ⟨_, List.mem_cons_of_mem _ (List.mem_singleton_self _), rfl⟩

end

/-! ## The contract -/

section

variable {L : Linked} {conn : User} {d : DomainPtr} {request : Request} {xml : String} {doc : List Xml} {os : Xml}

/-- The domain is described as `xml`, and nothing else succeeds. -/
def describing (xml : String) (w : Unit) : (o : Op) → Op.Res o × Unit
  | .libvirt (.virDomainGetXMLDesc _) => (.ok (some xml), w)
  | .libvirt c => (.ok c.failed, w)
  | .user conn => (conn, w)
  | .uninitialised => ((0 : ℤ), w)
  | .now => ((0 : ℚ), w)
  | .sleepFor _ => ((), w)

/-- One document is handed over. -/
theorem Hands.eq_changed (h : Hands L conn d request xml doc) : doc = changed request (L.loadXml xml) := by
  classical
  -- a way to save documents that tells this one from all others
  have hcalled := h Unit (describing xml) {} () rfl fun x => if x = doc then "a" else "b"
  rw [(makes_bootmenu rfl rfl).events] at hcalled
  obtain ⟨e, he, hcall⟩ := hcalled
  simp only [List.mem_cons, List.not_mem_nil, or_false] at he
  rcases he with rfl | rfl
  · cases hcall
  · by_contra hne
    have hsaved : cStr (if changed request (L.loadXml xml) = doc then "a" else "b") =
        cStr (if doc = doc then "a" else "b") := by
      injection hcall with hcall
      injection hcall
    rw [if_neg (Ne.symm hne), if_pos rfl] at hsaved
    exact absurd hsaved (by decide)

theorem exists_setBootmenu (h : osOf doc = some os) (v : String) :
    ∃ oas ocs, setBootmenu v os = .elem "os" oas ocs := by
  obtain ⟨-, -, -, -, -, oas, ocs, rfl, -⟩ := exists_of_osOf h
  exact ⟨oas, _, setBootmenu_elem⟩

/-- Of two requests the second one decides. -/
theorem changed_changed (h : osOf doc = some os) (hone : (named "bootmenu" os.children).length ≤ 1)
    (request request' : Request) : changed request' (changed request doc) = changed request' doc := by
  refine setOs_setOs h (exists_setBootmenu h _) ?_
  obtain ⟨-, -, -, -, -, oas, ocs, rfl, -⟩ := exists_of_osOf h
  exact setBootmenu_setBootmenu hone _

theorem onlyFlag_iff (h : osOf doc = some os) (hone : (named "bootmenu" os.children).length ≤ 1) (v : String) :
    OnlyFlag v os (setBootmenu v os) ↔
      ∀ b ∈ named "bootmenu" os.children, otherAttributes b = [] ∧ b.children = [] := by
  obtain ⟨-, -, -, -, -, oas, ocs, rfl, -⟩ := exists_of_osOf h
  exact onlyFlag_setBootmenu_iff hone

/-- The contract says that the boot menu there was had nothing but the flag. -/
theorem ChangesFlag.menu (h : ChangesFlag L conn d request xml doc) (hos : osOf (L.loadXml xml) = some os)
    (hone : (named "bootmenu" os.children).length ≤ 1) :
    ∀ b ∈ named "bootmenu" os.children, otherAttributes b = [] ∧ b.children = [] := by
  obtain rfl := h.hands.eq_changed
  obtain ⟨-, -, -, -, -, os1, os1', -, -, h1, h1', honly⟩ := h.onlyFlag
  obtain rfl : os = os1 := Option.some.inj (hos.symm.trans h1)
  obtain rfl : setBootmenu (flag request) os = os1' :=
    Option.some.inj ((osOf_setOs hos (exists_setBootmenu hos _)).symm.trans h1')
  exact (onlyFlag_iff hos hone _).mp honly

/-- A request changes nothing but the flag exactly when the boot menu that it replaces had nothing else. -/
theorem changesFlag_iff (L : Linked) (conn : User) (d : DomainPtr) (request : Request) (xml : String) {os : Xml}
    (hos : osOf (L.loadXml xml) = some os) (hone : (named "bootmenu" os.children).length ≤ 1) :
    (∃ doc, ChangesFlag L conn d request xml doc) ↔
      ∀ b ∈ named "bootmenu" os.children, otherAttributes b = [] ∧ b.children = [] := by
  constructor
  · rintro ⟨doc, h⟩
    exact h.menu hos hone
  · intro hmenu
    have hagain : ∀ xml' request', L.loadXml xml' = changed request (L.loadXml xml) →
        Hands L conn d request' xml' (changed request' (L.loadXml xml)) := by
      intro xml' request' h
      rw [← changed_changed hos hone request request', ← h]
      exact hands_changed L conn d request' xml'
    refine ⟨changed request (L.loadXml xml), hands_changed L conn d request xml, ?_, ?_, ?_, ?_⟩
    · exact atOs_setOs hos (exists_setBootmenu hos _) ((onlyFlag_iff hos hone _).mpr hmenu)
    · exact fun xml' h => hagain xml' request h
    · exact fun xml' request' h => ⟨_, hands_changed L conn d request' xml, hagain xml' request' h⟩
    · intro σ answer r r' w w' h hexec hok
      cases hdefine : (answer (described answer d w) (.libvirt (defineCall L conn request xml))).1 with
      | error e => cases hexec.symm.trans (makes_bootmenu_error h hdefine).exec
      | ok redefined =>
        cases hexec.symm.trans (makes_bootmenu h hdefine).exec
        cases redefined with
        | none => cases hok
        | some _ => rfl

end

/-! A domain with a boot menu. -/

/-- The boot menu is the last child of `os`. -/
def menuDocument (menu : Xml) : List Xml :=
  [.elem "domain" [] [.elem "os" [] [.elem "type" [("arch", "x86_64")] [], .elem "boot" [("dev", "hd")] [], menu]]]

def menuLinked (menu : Xml) : Linked where
  isUpgrade _ := false
  beastVersion := "Boost.Beast"
  stringify j := j.write ++ "\n"
  parseJson _ := none
  loadXml _ := menuDocument menu
  saveXml _ := "<domain/>"
  strerror _ := ""

def menuRequest : Request := { method := .post, target := "/users/ann/domains/vm/bootmenu/" }

theorem changesFlag_iff_plain :
    (∃ doc, ChangesFlag (menuLinked (.elem "bootmenu" [("enable", "no")] [])) "ann" 0 menuRequest "<domain/>" doc) ↔
      ∀ b ∈ [Xml.elem "bootmenu" [("enable", "no")] []], otherAttributes b = [] ∧ b.children = [] := by
  have hos : osOf ((menuLinked (.elem "bootmenu" [("enable", "no")] [])).loadXml "<domain/>") = some (.elem "os" []
      [.elem "type" [("arch", "x86_64")] [], .elem "boot" [("dev", "hd")] [],
        .elem "bootmenu" [("enable", "no")] []]) :=
    rfl
  have hone : [Xml.elem "bootmenu" [("enable", "no")] []].length ≤ 1 := le_refl 1
  exact changesFlag_iff _ "ann" 0 menuRequest "<domain/>" hos hone

/-- The time that a boot menu waits is lost. -/
theorem timeout_lost :
    ¬ ∃ doc, ChangesFlag (menuLinked (.elem "bootmenu" [("enable", "no"), ("timeout", "3000")] [])) "ann" 0 menuRequest
      "<domain/>" doc := by
  rintro ⟨doc, h⟩
  obtain ⟨hother, -⟩ := h.menu rfl (le_refl 1) _ (List.mem_singleton_self _)
  cases hother

end Webvirtd.Views.Domains
