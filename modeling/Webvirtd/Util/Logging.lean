import Mathlib.Data.List.Basic
import Mathlib.Tactic.IntervalCases
import Webvirtd.Exception
import Webvirtd.Lib.BasicString

/-!
# Util.Logging — `pretty_function_prefix`

The three backward searches over the text of a member function, `r q1::..::qk::f(rest)`.  The last two names are
found with `k ≥ 3`, where the third search ends at the separator before them.  With `k = 2` it goes on into the
return type, or finds nothing and `npos + 2` is 1: the slice then starts in the return type.
-/

namespace Webvirtd.Logging

open Lib.BasicString

/-- `"::"`. -/
def sep : List Char := [':', ':']

@[simp] theorem length_sep : sep.length = 2 := rfl

/-- `pretty_function_prefix`. -/
def prettyFunctionPrefix (prettyFunction : List Char) : Except Exn (List Char) :=
  let end' := find prettyFunction '('
  let end' := rfind prettyFunction sep end'
  let start := rfind prettyFunction sep (end' - 1)
  let start := rfind prettyFunction sep (start - 1) + 2
  match substr prettyFunction start (end' - start) with
  | some slice => .ok slice
  | none => .error ⟨.outOfRange, "basic_string::substr: __pos (which is " ++ toString start ++
      ") > this->size() (which is " ++ toString prettyFunction.length ++ ")"⟩

/-! ## The text of a member function -/

/-- The characters of an identifier are none of those that separate it from others. -/
structure Identifier where
  chars : List Char
  nonempty : chars ≠ []
  plain : ∀ c ∈ chars, c ≠ ' ' ∧ c ≠ ':' ∧ c ≠ '('

/-- The identifier that is written `s`. -/
def Identifier.ofString (s : String)
    (h : s.toList ≠ [] ∧ (s.toList.all fun c => c != ' ' && c != ':' && c != '(') = true) : Identifier where
  chars := s.toList
  nonempty := h.1
  plain := by simpa [and_assoc] using h.2

structure ReturnType where
  chars : List Char
  nonempty : chars ≠ []
  noParen : '(' ∉ chars

/-- `q1::..::qk::`. -/
def scope (qs : List Identifier) : List Char := qs.flatMap fun q => q.chars ++ sep

/-- `r q1::..::qk::f(rest`. -/
def memberFunction (r : ReturnType) (qs : List Identifier) (f : Identifier) (rest : List Char) :
    List Char :=
  r.chars ++ ' ' :: (scope qs ++ (f.chars ++ '(' :: rest))

/-- `q(k-1)::qk`. -/
def classPrefix (qs : List Identifier) : List Char :=
  sep.intercalate ((qs.drop (qs.length - 2)).map Identifier.chars)

@[simp] theorem scope_nil : scope [] = [] := rfl

theorem scope_append (qs qs' : List Identifier) : scope (qs ++ qs') = scope qs ++ scope qs' :=
  List.flatMap_append

theorem scope_pair (a b : Identifier) : scope [a, b] = a.chars ++ (sep ++ (b.chars ++ sep)) := by
  simp [scope]

theorem Identifier.colon_notMem (q : Identifier) : ':' ∉ q.chars := fun h => (q.plain _ h).2.1 rfl

theorem Identifier.paren_notMem (q : Identifier) : '(' ∉ q.chars := fun h => (q.plain _ h).2.2 rfl

theorem scope_paren_notMem (qs : List Identifier) : '(' ∉ scope qs := by
  intro h
  obtain ⟨q, _, hq⟩ := List.mem_flatMap.mp h
  rcases List.mem_append.mp hq with hq | hq
  · exact q.paren_notMem hq
  · revert hq
    decide

theorem classPrefix_append (qs : List Identifier) (a b : Identifier) :
    classPrefix (qs ++ [a, b]) = a.chars ++ (sep ++ b.chars) := by
  have hdrop : (qs ++ [a, b]).length - 2 = qs.length := by simp
  rw [classPrefix, hdrop, List.drop_left]
  simp [List.intercalate]

/-! ## Searches for the separator -/

theorem sep_prefix_iff {s : List Char} {j : ℕ} :
    sep <+: s.drop j ↔ s[j]? = some ':' ∧ s[j + 1]? = some ':' := by
  rw [List.prefix_iff_getElem?]
  constructor
  · intro h
    have h0 := h 0 (by decide)
    have h1 := h 1 (by decide)
    rw [List.getElem?_drop] at h0 h1
    exact ⟨h0, h1⟩
  · rintro ⟨h0, h1⟩ i hi
    have hi : i < 2 := hi
    rw [List.getElem?_drop]
    interval_cases i
    · exact h0
    · exact h1

theorem getElem?_ne_colon {u v w : List Char} {i : ℕ} (hplain : ':' ∉ v) (hle : u.length ≤ i)
    (hlt : i < u.length + v.length) : (u ++ (v ++ w))[i]? ≠ some ':' := by
  intro heq
  rw [List.getElem?_append_right hle, List.getElem?_append_left (by omega)] at heq
  exact hplain (List.mem_of_getElem? heq)

/-- A separator is the last one before a position in the name after it. -/
theorem rfind_sep {u v w : List Char} {pos : UInt64} (hv : v ≠ []) (hplain : ':' ∉ v)
    (hle : u.length ≤ pos.toNat) (hlt : pos.toNat < u.length + 2 + v.length) :
    rfind (u ++ (sep ++ (v ++ w))) sep pos = UInt64.ofNat u.length := by
  have hname : ∀ i, u.length + 2 ≤ i → i < u.length + 2 + v.length →
      (u ++ (sep ++ (v ++ w)))[i]? ≠ some ':' := by
    intro i hi hi'
    have hlen : (u ++ sep).length = u.length + 2 := by rw [List.length_append, length_sep]
    rw [← List.append_assoc]
    exact getElem?_ne_colon hplain (by omega) (by omega)
  refine rfind_append hle fun j hj hjn hpre => ?_
  obtain ⟨h0, h1⟩ := sep_prefix_iff.mp hpre
  have hpos := List.length_pos_iff.mpr hv
  by_cases hone : j = u.length + 1
  · exact hname (j + 1) (by omega) (by omega) h1
  · exact hname j (by omega) (by omega) h0

/-- What stands before the last two names. -/
def lead (r : ReturnType) (qs : List Identifier) : List Char := r.chars ++ ' ' :: scope qs

theorem memberFunction_append (r : ReturnType) (qs : List Identifier) (a b f : Identifier)
    (rest : List Char) :
    memberFunction r (qs ++ [a, b]) f rest =
      lead r qs ++ (a.chars ++ (sep ++ (b.chars ++ (sep ++ (f.chars ++ '(' :: rest))))) := by
  simp [memberFunction, lead, scope_append, scope_pair]

theorem lead_append (r : ReturnType) (qs : List Identifier) (q : Identifier) :
    lead r (qs ++ [q]) = lead r qs ++ (q.chars ++ sep) := by
  simp [lead, scope]

theorem lead_paren_notMem (r : ReturnType) (qs : List Identifier) : '(' ∉ lead r qs := by
  intro h
  rcases List.mem_append.mp h with h | h
  · exact r.noParen h
  · rcases List.mem_cons.mp h with h | h
    · revert h
      decide
    · exact scope_paren_notMem qs h

section

variable {r : ReturnType} {qs : List Identifier} {a b f : Identifier} {rest : List Char}

theorem sep_paren_notMem : '(' ∉ sep := by decide

theorem length_memberFunction (r : ReturnType) (qs : List Identifier) (a b f : Identifier)
    (rest : List Char) : (memberFunction r (qs ++ [a, b]) f rest).length =
      (lead r qs).length + a.chars.length + 2 + b.chars.length + 2 + f.chars.length + 1 +
        rest.length := by
  rw [memberFunction_append]
  simp [sep]
  omega

theorem find_paren : find (memberFunction r (qs ++ [a, b]) f rest) '(' =
    UInt64.ofNat ((lead r qs).length + a.chars.length + 2 + b.chars.length + 2 + f.chars.length) := by
  have htext : memberFunction r (qs ++ [a, b]) f rest =
      (lead r qs ++ a.chars ++ sep ++ b.chars ++ sep ++ f.chars) ++ '(' :: rest := by
    rw [memberFunction_append]
    simp
  have hnotMem : '(' ∉ lead r qs ++ a.chars ++ sep ++ b.chars ++ sep ++ f.chars := by
    simp only [List.mem_append, not_or]
    exact ⟨⟨⟨⟨⟨lead_paren_notMem r qs, a.paren_notMem⟩, sep_paren_notMem⟩, b.paren_notMem⟩,
      sep_paren_notMem⟩, f.paren_notMem⟩
  rw [htext, find_append_cons hnotMem]
  simp only [List.length_append, length_sep]

/-- The first backward search gives the separator before `f`. -/
theorem rfind_function (hlen : (memberFunction r (qs ++ [a, b]) f rest).length < 2 ^ 64) :
    rfind (memberFunction r (qs ++ [a, b]) f rest) sep
        (find (memberFunction r (qs ++ [a, b]) f rest) '(') =
      UInt64.ofNat ((lead r qs).length + a.chars.length + 2 + b.chars.length) := by
  rw [length_memberFunction] at hlen
  rw [find_paren]
  have htext : memberFunction r (qs ++ [a, b]) f rest =
      (lead r qs ++ a.chars ++ sep ++ b.chars) ++ (sep ++ ((f.chars ++ ['(']) ++ rest)) := by
    rw [memberFunction_append]
    simp
  have hplain : ':' ∉ f.chars ++ ['('] := by simp [f.colon_notMem]
  have hu : (lead r qs ++ a.chars ++ sep ++ b.chars).length =
      (lead r qs).length + a.chars.length + 2 + b.chars.length := by
    simp only [List.length_append, length_sep]
  rw [htext, ← hu]
  refine rfind_sep (by simp) hplain ?_ ?_
  · rw [toNat_ofNat_of_lt (by omega)]
    omega
  · have hv : (f.chars ++ ['(']).length = f.chars.length + 1 := by simp
    rw [toNat_ofNat_of_lt (by omega)]
    omega

/-- The second gives the one before `qk`. -/
theorem rfind_class (hlen : (memberFunction r (qs ++ [a, b]) f rest).length < 2 ^ 64) :
    rfind (memberFunction r (qs ++ [a, b]) f rest) sep
        (UInt64.ofNat ((lead r qs).length + a.chars.length + 2 + b.chars.length) - 1) =
      UInt64.ofNat ((lead r qs).length + a.chars.length) := by
  rw [length_memberFunction] at hlen
  have hb := List.length_pos_iff.mpr b.nonempty
  have htext : memberFunction r (qs ++ [a, b]) f rest =
      (lead r qs ++ a.chars) ++ (sep ++ (b.chars ++ (sep ++ (f.chars ++ '(' :: rest)))) := by
    rw [memberFunction_append]
    simp
  have hu : (lead r qs ++ a.chars).length = (lead r qs).length + a.chars.length := by simp
  have hpos : UInt64.ofNat ((lead r qs).length + a.chars.length + 2 + b.chars.length) - 1 =
      UInt64.ofNat ((lead r qs).length + a.chars.length + 2 + b.chars.length - 1) :=
    ofNat_sub_one (by omega) (by omega)
  rw [hpos, htext, ← hu]
  refine rfind_sep b.nonempty b.colon_notMem ?_ ?_
  · rw [toNat_ofNat_of_lt (by omega)]
    omega
  · rw [toNat_ofNat_of_lt (by omega)]
    omega

/-- With another name before the last two the third gives the separator after it. -/
theorem rfind_namespace {q : Identifier}
    (hlen : (memberFunction r ((qs ++ [q]) ++ [a, b]) f rest).length < 2 ^ 64) :
    rfind (memberFunction r ((qs ++ [q]) ++ [a, b]) f rest) sep
        (UInt64.ofNat ((lead r (qs ++ [q])).length + a.chars.length) - 1) + 2 =
      UInt64.ofNat (lead r (qs ++ [q])).length := by
  rw [length_memberFunction] at hlen
  have ha := List.length_pos_iff.mpr a.nonempty
  have htext : memberFunction r ((qs ++ [q]) ++ [a, b]) f rest =
      (lead r qs ++ q.chars) ++
        (sep ++ (a.chars ++ (sep ++ (b.chars ++ (sep ++ (f.chars ++ '(' :: rest)))))) := by
    rw [memberFunction_append, lead_append]
    simp
  have hu : (lead r (qs ++ [q])).length = (lead r qs ++ q.chars).length + 2 := by
    rw [lead_append]
    simp [sep]
    omega
  have hpos : UInt64.ofNat ((lead r (qs ++ [q])).length + a.chars.length) - 1 =
      UInt64.ofNat ((lead r (qs ++ [q])).length + a.chars.length - 1) :=
    ofNat_sub_one (by omega) (by omega)
  have hsep : rfind (memberFunction r ((qs ++ [q]) ++ [a, b]) f rest) sep
      (UInt64.ofNat ((lead r (qs ++ [q])).length + a.chars.length) - 1) =
      UInt64.ofNat (lead r qs ++ q.chars).length := by
    rw [hpos, htext]
    refine rfind_sep a.nonempty a.colon_notMem ?_ ?_
    · rw [toNat_ofNat_of_lt (by omega)]
      omega
    · rw [toNat_ofNat_of_lt (by omega)]
      omega
  rw [hsep, hu]
  exact ofNat_add_ofNat _ 2

/-- Without one it gives a position in the return type, or `npos`. -/
theorem rfind_returnType (hlen : (memberFunction r ([] ++ [a, b]) f rest).length < 2 ^ 64) :
    (rfind (memberFunction r ([] ++ [a, b]) f rest) sep
      (UInt64.ofNat ((lead r []).length + a.chars.length) - 1) + 2).toNat ≤ r.chars.length := by
  rw [length_memberFunction] at hlen
  have hr := List.length_pos_iff.mpr r.nonempty
  have ha := List.length_pos_iff.mpr a.nonempty
  have hlead : (lead r []).length = r.chars.length + 1 := by simp [lead]
  have htext : memberFunction r ([] ++ [a, b]) f rest =
      r.chars ++ ((' ' :: a.chars) ++ (sep ++ (b.chars ++ (sep ++ (f.chars ++ '(' :: rest))))) := by
    rw [memberFunction_append]
    simp [lead]
  have hplain : ':' ∉ ' ' :: a.chars := by simp [a.colon_notMem]
  have hname : (' ' :: a.chars).length = a.chars.length + 1 := rfl
  rw [ofNat_sub_one (by omega) (by omega)]
  rcases rfind_cases (memberFunction r ([] ++ [a, b]) f rest) sep
    (UInt64.ofNat ((lead r []).length + a.chars.length - 1)) with hnone | ⟨t, ht, hpre, heq⟩
  · rw [hnone]
    exact hr
  · rw [toNat_ofNat_of_lt (by omega)] at ht
    obtain ⟨h0, h1⟩ := sep_prefix_iff.mp hpre
    rw [htext] at h0 h1
    have hsmall : t + 2 ≤ r.chars.length := by
      by_contra hlarge
      by_cases hend : t + 1 = r.chars.length
      · exact getElem?_ne_colon hplain (by omega) (by omega) h1
      · exact getElem?_ne_colon hplain (by omega) (by omega) h0
    have hsum : UInt64.ofNat t + 2 = UInt64.ofNat (t + 2) := ofNat_add_ofNat t 2
    rw [heq, hsum, toNat_ofNat_of_lt (by omega)]
    exact hsmall

/-! ## The slice -/

theorem prettyFunctionPrefix_of_substr {start slice}
    (hlen : (memberFunction r (qs ++ [a, b]) f rest).length < 2 ^ 64)
    (hstart : rfind (memberFunction r (qs ++ [a, b]) f rest) sep
      (UInt64.ofNat ((lead r qs).length + a.chars.length) - 1) + 2 = start)
    (hslice : substr (memberFunction r (qs ++ [a, b]) f rest) start
      (UInt64.ofNat ((lead r qs).length + a.chars.length + 2 + b.chars.length) - start) =
        some slice) :
    prettyFunctionPrefix (memberFunction r (qs ++ [a, b]) f rest) = .ok slice := by
  unfold prettyFunctionPrefix
  simp only [rfind_function hlen, rfind_class hlen, hstart, hslice]

/-- Three names and more: the last two. -/
theorem prettyFunctionPrefix_namespace {q : Identifier}
    (hlen : (memberFunction r ((qs ++ [q]) ++ [a, b]) f rest).length < 2 ^ 64) :
    prettyFunctionPrefix (memberFunction r ((qs ++ [q]) ++ [a, b]) f rest) =
      .ok (classPrefix ((qs ++ [q]) ++ [a, b])) := by
  refine prettyFunctionPrefix_of_substr hlen (rfind_namespace hlen) ?_
  have htext : memberFunction r ((qs ++ [q]) ++ [a, b]) f rest =
      lead r (qs ++ [q]) ++ (a.chars ++ (sep ++ b.chars) ++ (sep ++ (f.chars ++ '(' :: rest))) := by
    rw [memberFunction_append]
    simp
  have hslice : (a.chars ++ (sep ++ b.chars)).length = a.chars.length + 2 + b.chars.length := by
    simp only [List.length_append, length_sep]
    omega
  have hcount : UInt64.ofNat ((lead r (qs ++ [q])).length + a.chars.length + 2 + b.chars.length) -
      UInt64.ofNat (lead r (qs ++ [q])).length =
      UInt64.ofNat (a.chars ++ (sep ++ b.chars)).length := by
    rw [length_memberFunction] at hlen
    rw [ofNat_sub_ofNat (by omega) (by omega), hslice]
    congr 1
    omega
  rw [classPrefix_append, hcount, htext]
  rw [htext] at hlen
  exact substr_append hlen

/-- Two names: the slice begins in the return type, and is longer than they are. -/
theorem prettyFunctionPrefix_class
    (hlen : (memberFunction r ([] ++ [a, b]) f rest).length < 2 ^ 64) :
    ∃ slice, prettyFunctionPrefix (memberFunction r ([] ++ [a, b]) f rest) = .ok slice ∧
      (classPrefix ([] ++ [a, b])).length < slice.length := by
  have hstart := rfind_returnType hlen
  have hlead : (lead r []).length = r.chars.length + 1 := by simp [lead]
  refine ⟨_, prettyFunctionPrefix_of_substr hlen rfl (substr_of_le ?_ _), ?_⟩
  · rw [length_memberFunction]
    omega
  · rw [length_memberFunction] at hlen
    rw [UInt64.toNat_sub_of_le _ _ ?_, toNat_ofNat_of_lt (by omega), List.length_take,
      List.length_drop, length_memberFunction, classPrefix_append]
    · simp only [List.length_append, length_sep]
      omega
    · rw [UInt64.le_iff_toNat_le, toNat_ofNat_of_lt (by omega)]
      omega

end

theorem exists_append_pair {qs : List Identifier} (h : 2 ≤ qs.length) :
    ∃ front a b, qs = front ++ [a, b] := by
  refine ⟨qs.take (qs.length - 2), ?_⟩
  have hlen : (qs.drop (qs.length - 2)).length = 2 := by
    rw [List.length_drop]
    omega
  obtain ⟨a, b, hab⟩ := List.length_eq_two.mp hlen
  exact ⟨a, b, by rw [← hab, List.take_append_drop]⟩

/-- For a member function whose name is qualified by two names or more there is no exception, and the last two
are extracted exactly if they are not all. -/
theorem prettyFunctionPrefix_iff (r : ReturnType) (qs : List Identifier) (f : Identifier)
    (rest : List Char) (hk : 2 ≤ qs.length)
    (hlen : (memberFunction r qs f rest).length < 2 ^ 64) :
    (∃ slice, prettyFunctionPrefix (memberFunction r qs f rest) = .ok slice) ∧
      (prettyFunctionPrefix (memberFunction r qs f rest) = .ok (classPrefix qs) ↔
        3 ≤ qs.length) := by
  obtain ⟨front, a, b, rfl⟩ := exists_append_pair hk
  rcases List.eq_nil_or_concat' front with rfl | ⟨front, q, rfl⟩
  · obtain ⟨slice, hslice, hlonger⟩ := prettyFunctionPrefix_class hlen
    refine ⟨⟨slice, hslice⟩, fun h => ?_, fun h => absurd h (by simp)⟩
    rw [hslice] at h
    cases h
    omega
  · have hok := prettyFunctionPrefix_namespace hlen
    exact ⟨⟨_, hok⟩, fun _ => by simp, fun _ => hok⟩

/-- `void webvirt::http::server::run(int)` -/
theorem prettyFunctionPrefix_server :
    prettyFunctionPrefix (memberFunction ⟨"void".toList, by decide, by decide⟩
        [.ofString "webvirt" (by decide), .ofString "http" (by decide), .ofString "server" (by decide)]
        (.ofString "run" (by decide)) "int)".toList) = .ok "http::server".toList :=
  (prettyFunctionPrefix_iff _ _ _ _ (by decide) (by decide)).2.mpr (by decide)

/-- `void webvirt::app::run()` -/
theorem app_truncated :
    let qs : List Identifier := [.ofString "webvirt" (by decide), .ofString "app" (by decide)]
    let text := memberFunction ⟨"void".toList, by decide, by decide⟩ qs (.ofString "run" (by decide)) [')']
    text = "void webvirt::app::run()".toList ∧
      prettyFunctionPrefix text = .ok "oid webvirt::app".toList ∧
      prettyFunctionPrefix text ≠ .ok (classPrefix qs) := by
  decide

end Webvirtd.Logging
