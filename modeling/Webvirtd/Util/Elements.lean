import Webvirtd.Util.Json

/-!
# Util.Elements — element trees up to the order that a document does not fix

`named k cs` are the child elements of one name, in document order.  `Everywhere P` says `P` of an element and of
all elements under it.  `Alike text` compares two elements name by name: it ignores how differently named children
are interleaved, and of the character data it keeps what `text` reads off the children.
-/

namespace Webvirtd.Xml

/-! ## Attributes and children -/

def attributes : Xml → List (String × String)
  | .elem _ as _ => as
  | .text _ _ => []

/-- The value of the attribute `a`; of several, the last one, as an object keeps it. -/
def attr (a : String) (x : Xml) : Option String :=
  (x.attributes.reverse.find? fun b => b.1 = a).map Prod.snd

/-- The children named `k`, in document order. -/
def named (k : String) (cs : List Xml) : List Xml := cs.filter fun c => c.name = k

/-- The character data of the text nodes among the children, one by one. -/
def chunks : List Xml → List String
  | [] => []
  | .elem _ _ _ :: xs => chunks xs
  | .text _ v :: xs => v :: chunks xs

/-- All the character data directly under a node. -/
def content (cs : List Xml) : String := String.join (chunks cs)

theorem mem_named {k : String} {cs : List Xml} {c : Xml} : c ∈ named k cs ↔ c ∈ cs ∧ c.name = k := by
  simp [named]

theorem named_append (k : String) (cs ds : List Xml) :
    named k (cs ++ ds) = named k cs ++ named k ds :=
  List.filter_append ..

theorem named_cons (k : String) (c : Xml) (cs : List Xml) :
    named k (c :: cs) = if c.name = k then c :: named k cs else named k cs := by
  simp only [named, List.filter_cons, decide_eq_true_eq]

/-- `child` finds the first element of the name. -/
theorem child_eq_head? {k : String} (hk : k ≠ "") (cs : List Xml) : child k cs = (named k cs).head? := by
  induction cs with
  | nil => rfl
  | cons c cs ih =>
    rw [named_cons]
    cases c with
    | text c v => rw [child, ih, if_neg (show ¬ (Xml.text c v).name = k from hk.symm)]
    | elem n as ds =>
      rw [child]
      by_cases hn : n = k
      · rw [if_pos hn, if_pos (show (Xml.elem n as ds).name = k from hn)]
        rfl
      · rw [if_neg hn, if_neg (show ¬ (Xml.elem n as ds).name = k from hn), ih]

theorem exists_elem_of_named {k : String} (hk : k ≠ "") {cs : List Xml} {c : Xml} (h : c ∈ named k cs) :
    ∃ as ds, c = .elem k as ds := by
  obtain ⟨-, hname⟩ := mem_named.mp h
  cases c with
  | text c v => exact absurd hname.symm hk
  | elem n as ds => exact ⟨as, ds, by rw [← hname]; rfl⟩

theorem chunks_append (cs ds : List Xml) : chunks (cs ++ ds) = chunks cs ++ chunks ds := by
  induction cs with
  | nil => rfl
  | cons c cs ih =>
    cases c with
    | text c v => exact congrArg _ ih
    | elem n as es => exact ih

theorem chunks_eq_nil {cs : List Xml} (h : ∀ c ∈ cs, ∃ n as ds, c = .elem n as ds) : chunks cs = [] := by
  induction cs with
  | nil => rfl
  | cons c cs ih =>
    obtain ⟨n, as, ds, rfl⟩ := h c List.mem_cons_self
    exact ih fun d hd => h d (List.mem_cons_of_mem _ hd)

/-- The first chunk is what `node.text()` reads. -/
theorem textOf_eq (cs : List Xml) : textOf cs = (chunks cs).headD "" := by
  induction cs with
  | nil => rfl
  | cons c cs ih =>
    cases c with
    | text c v => rfl
    | elem n as ds => exact ih

theorem join_eq_empty {ts : List String} (h : ∀ t ∈ ts, t = "") : String.join ts = "" := by
  induction ts with
  | nil => exact String.join_nil
  | cons t ts ih =>
    rw [String.join_cons, h t List.mem_cons_self, ih fun u hu => h u (List.mem_cons_of_mem _ hu)]
    rfl

/-- When only the first chunk may have characters, it is all there is. -/
theorem content_eq_textOf {cs : List Xml} (h : ∀ t ∈ (chunks cs).tail, t = "") : content cs = textOf cs := by
  rw [content, textOf_eq]
  cases hc : chunks cs with
  | nil => exact String.join_nil
  | cons t ts =>
    rw [hc, List.tail_cons] at h
    rw [String.join_cons, join_eq_empty h, String.append_empty, List.headD_cons]

/-! ## The first child of a name -/

theorem child_eq_none_iff {k : String} (hk : k ≠ "") {cs : List Xml} : child k cs = none ↔ named k cs = [] := by
  rw [child_eq_head? hk, List.head?_eq_none_iff]

theorem child_append {k : String} {pre : List Xml} (h : child k pre = none) (cs : List Xml) :
    child k (pre ++ cs) = child k cs := by
  induction pre with
  | nil => rfl
  | cons c pre ih =>
    cases c with
    | text c v => exact ih h
    | elem n as ds =>
      unfold child at h
      split_ifs at h with hn
      show (if n = k then _ else child k (pre ++ cs)) = _
      rw [if_neg hn, ih h]

theorem updateChild_append {k : String} {pre : List Xml} (h : child k pre = none) (f : Xml → Xml) (cs : List Xml) :
    updateChild k f (pre ++ cs) = pre ++ updateChild k f cs := by
  induction pre with
  | nil => rfl
  | cons c pre ih =>
    cases c with
    | text c v => exact congrArg _ (ih h)
    | elem n as ds =>
      unfold child at h
      split_ifs at h with hn
      show (if n = k then _ else _ :: updateChild k f (pre ++ cs)) = _
      rw [if_neg hn, ih h]
      rfl

theorem removeChild_append {k : String} {pre : List Xml} (h : child k pre = none) (cs : List Xml) :
    removeChild k (pre ++ cs) = pre ++ removeChild k cs := by
  induction pre with
  | nil => rfl
  | cons c pre ih =>
    cases c with
    | text c v => exact congrArg _ (ih h)
    | elem n as ds =>
      unfold child at h
      split_ifs at h with hn
      show (if n = k then _ else _ :: removeChild k (pre ++ cs)) = _
      rw [if_neg hn, ih h]
      rfl

/-- What is before and after the child that is found. -/
theorem exists_of_child {k : String} {cs : List Xml} {x : Xml} (h : child k cs = some x) :
    ∃ pre post as ds, x = .elem k as ds ∧ cs = pre ++ x :: post ∧ child k pre = none := by
  induction cs with
  | nil => cases h
  | cons c cs ih =>
    cases c with
    | text c v =>
      obtain ⟨pre, post, as, ds, hx, rfl, hpre⟩ := ih h
      exact ⟨.text c v :: pre, post, as, ds, hx, rfl, hpre⟩
    | elem n as ds =>
      unfold child at h
      split_ifs at h with hn
      · subst hn
        obtain rfl := Option.some.inj h
        exact ⟨[], cs, as, ds, rfl, rfl, rfl⟩
      · obtain ⟨pre, post, as', ds', hx, rfl, hpre⟩ := ih h
        refine ⟨.elem n as ds :: pre, post, as', ds', hx, rfl, ?_⟩
        show (if n = k then _ else child k pre) = none
        rw [if_neg hn, hpre]

/-- Of a name that only one child has, no child is left. -/
theorem removeChild_eq_filter {k : String} (hk : k ≠ "") {cs : List Xml} (h : (named k cs).length ≤ 1) :
    removeChild k cs = cs.filter fun c => c.name ≠ k := by
  induction cs with
  | nil => rfl
  | cons c cs ih =>
    rw [named_cons] at h
    cases c with
    | text c v =>
      rw [if_neg (show ¬ (Xml.text c v).name = k from hk.symm)] at h
      rw [removeChild, ih h, List.filter_cons_of_pos (by simp [name, hk.symm])]
    | elem n as ds =>
      by_cases hn : n = k
      · rw [if_pos (show (Xml.elem n as ds).name = k from hn), List.length_cons] at h
        have hnil : named k cs = [] := List.length_eq_zero_iff.mp (by omega)
        rw [removeChild, if_pos hn, List.filter_cons_of_neg (by simp [name, hn])]
        refine (List.filter_eq_self.mpr fun c hc => ?_).symm
        have hmem : c ∉ named k cs := by
          rw [hnil]
          exact List.not_mem_nil
        simpa using fun hname => hmem (mem_named.mpr ⟨hc, hname⟩)
      · rw [if_neg (show ¬ (Xml.elem n as ds).name = k from hn)] at h
        rw [removeChild, if_neg hn, ih h, List.filter_cons_of_pos (by simp [name, hn])]

/-! ## Trees -/

/-- `P` holds of the attributes and children of an element and of every element below. -/
inductive Everywhere (P : List (String × String) → List Xml → Prop) : Xml → Prop
  | elem {n : String} {as : List (String × String)} {cs : List Xml} (here : P as cs)
      (below : ∀ c ∈ cs, c.name ≠ "" → Everywhere P c) : Everywhere P (.elem n as cs)

theorem Everywhere.inv {P : List (String × String) → List Xml → Prop} {n : String} {as : List (String × String)}
    {cs : List Xml} (h : Everywhere P (.elem n as cs)) :
    P as cs ∧ ∀ k ≠ "", ∀ c ∈ named k cs, Everywhere P c := by
  cases h with
  | elem here below =>
    refine ⟨here, fun k hk c hc => ?_⟩
    obtain ⟨hmem, hname⟩ := mem_named.mp hc
    exact below c hmem (hname.trans_ne hk)

theorem Everywhere.mono {P Q : List (String × String) → List Xml → Prop} (h : ∀ as cs, P as cs → Q as cs)
    {x : Xml} (hx : Everywhere P x) : Everywhere Q x := by
  induction hx with
  | elem here below ih => exact .elem (h _ _ here) ih

theorem everywhere_congr {P Q : List (String × String) → List Xml → Prop} (h : ∀ as cs, P as cs ↔ Q as cs)
    (x : Xml) : Everywhere P x ↔ Everywhere Q x :=
  ⟨.mono fun as cs => (h as cs).mp, .mono fun as cs => (h as cs).mpr⟩

/-- Two elements, whatever their own names, with the same attributes and the same text, whose children of each
name are alike one after the other. -/
inductive Alike (text : List Xml → String) : Xml → Xml → Prop
  | elem {n m : String} {as bs : List (String × String)} {cs ds : List Xml} (attributes : ∀ a, a ∈ as ↔ a ∈ bs)
      (sameText : text cs = text ds) (count : ∀ k ≠ "", (named k cs).length = (named k ds).length)
      (children : ∀ k ≠ "", ∀ (i : ℕ) (c d : Xml), (named k cs)[i]? = some c → (named k ds)[i]? = some d →
        Alike text c d) : Alike text (.elem n as cs) (.elem m bs ds)

end Webvirtd.Xml
