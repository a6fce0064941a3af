import Mathlib.Data.List.TakeWhile
import Mathlib.Data.Nat.Notation
import Mathlib.Tactic.Common

/-!
# Lib.Regex — a fragment of ECMAScript regular expressions under full matching

Patterns are sequences of atoms: the anchors, one character, one character of a class, and a greedy
run of characters of a class, captured or not.  `parse` reads the usual notation (`^`, `$`, `.`,
`[^c]`, `+`, `(..)`).

* `Matches as b cs caps`: the relation.  `cs` is matched in full by `as`, with captures `caps`; `b`
  tells whether the match is still at the start of the input.
* `run`: the backtracking matcher, longest runs first.  `run_sound` and `run_isSome_of_matches`
  relate it to `Matches`; `matches_*_iff` invert the relation atom by atom.
* `seg_append_inj`: slash-free (more generally, separator-free) segments are determined by the text.
-/

namespace Lib.Regex

/-- `.` and `[^c]`. -/
inductive Cls
  | any
  | except (c : Char)
  deriving DecidableEq, Repr

/-- `.` takes no line terminator. -/
def Cls.has : Cls → Char → Bool
  | .any, x => x != '\n' && x != '\r'
  | .except c, x => x != c

inductive Atom
  | bol
  | eol
  | chr (c : Char)
  | cls (p : Cls)
  | plus (p : Cls)
  | group (p : Cls)
  deriving DecidableEq, Repr

/-- A class at the head of a pattern, and what follows it. -/
def parseCls : List Char → Option (Cls × List Char)
  | '.' :: cs => some (.any, cs)
  | '[' :: '^' :: c :: ']' :: cs => some (.except c, cs)
  | _ => none

def parseFuel : ℕ → List Char → Option (List Atom)
  | _, [] => some []
  | 0, _ => none
  | n + 1, '^' :: cs => (parseFuel n cs).map (.bol :: ·)
  | n + 1, '$' :: cs => (parseFuel n cs).map (.eol :: ·)
  | n + 1, '(' :: cs =>
    match parseCls cs with
    | some (p, '+' :: ')' :: rest) => (parseFuel n rest).map (.group p :: ·)
    | _ => none
  | n + 1, c :: cs =>
    match parseCls (c :: cs) with
    | some (p, '+' :: rest) => (parseFuel n rest).map (.plus p :: ·)
    | some (p, rest) => (parseFuel n rest).map (.cls p :: ·)
    | none => (parseFuel n cs).map (.chr c :: ·)

/-- The pattern that a string denotes; `none` outside the fragment. -/
def parse (s : String) : Option (List Atom) := parseFuel s.toList.length s.toList

/-! ## Matching -/

inductive Matches : List Atom → Bool → List Char → List (List Char) → Prop
  | nil (b) : Matches [] b [] []
  | bol {as cs caps} (h : Matches as true cs caps) : Matches (.bol :: as) true cs caps
  | eol {as b caps} (h : Matches as b [] caps) : Matches (.eol :: as) b [] caps
  | chr {as b c cs caps} (h : Matches as false cs caps) : Matches (.chr c :: as) b (c :: cs) caps
  | cls {as b p c cs caps} (hc : p.has c = true) (h : Matches as false cs caps) :
      Matches (.cls p :: as) b (c :: cs) caps
  | plus {as b p xs cs caps} (hne : xs ≠ []) (hx : ∀ x ∈ xs, p.has x = true)
      (h : Matches as false cs caps) : Matches (.plus p :: as) b (xs ++ cs) caps
  | group {as b p xs cs caps} (hne : xs ≠ []) (hx : ∀ x ∈ xs, p.has x = true)
      (h : Matches as false cs caps) : Matches (.group p :: as) b (xs ++ cs) (xs :: caps)

/-- The lengths that a run of `p` can take from `cs`, longest first. -/
def lengths (p : Cls) (cs : List Char) : List ℕ :=
  ((List.range (cs.takeWhile p.has).length).map (· + 1)).reverse

/-- The backtracking matcher: the captures of the first match in the order of preference. -/
def run : List Atom → Bool → List Char → Option (List (List Char))
  | [], _, cs => if cs = [] then some [] else none
  | .bol :: as, b, cs => if b then run as true cs else none
  | .eol :: as, b, cs => if cs = [] then run as b cs else none
  | .chr c :: as, _, cs =>
    match cs with
    | x :: xs => if x = c then run as false xs else none
    | [] => none
  | .cls p :: as, _, cs =>
    match cs with
    | x :: xs => if p.has x then run as false xs else none
    | [] => none
  | .plus p :: as, _, cs => (lengths p cs).findSome? fun n => run as false (cs.drop n)
  | .group p :: as, _, cs =>
    (lengths p cs).findSome? fun n => (run as false (cs.drop n)).map (cs.take n :: ·)

/-- `std::regex_match` of a whole string: its captures. -/
def regexMatch (as : List Atom) (s : String) : Option (List String) :=
  (run as true s.toList).map (·.map String.ofList)

theorem mem_lengths {p : Cls} {cs : List Char} {n : ℕ} :
    n ∈ lengths p cs ↔ 0 < n ∧ n ≤ (cs.takeWhile p.has).length := by
  simp only [lengths, List.mem_reverse, List.mem_map, List.mem_range]
  constructor
  · rintro ⟨m, hm, rfl⟩
    omega
  · rintro ⟨h0, h1⟩
    exact ⟨n - 1, by omega, by omega⟩

/-- A prefix within the longest run consists of characters of the class. -/
theorem take_of_mem_lengths {p : Cls} {cs : List Char} {n : ℕ} (h : n ∈ lengths p cs) :
    cs.take n ≠ [] ∧ ∀ x ∈ cs.take n, p.has x = true := by
  obtain ⟨h0, h1⟩ := mem_lengths.mp h
  have hlen : n ≤ cs.length := h1.trans (List.takeWhile_prefix _).length_le
  refine ⟨fun he => ?_, fun x hx => ?_⟩
  · have := congrArg List.length he
    rw [List.length_take] at this
    simp only [List.length_nil] at this
    omega
  · have htake : cs.take n <+: cs.takeWhile p.has :=
      List.prefix_of_prefix_length_le (List.take_prefix n cs) (List.takeWhile_prefix _)
        (by rw [List.length_take]; omega)
    exact List.mem_takeWhile_imp (htake.subset hx)

/-- A run of the class at the head of the text is within the longest one. -/
theorem length_mem_lengths {p : Cls} {xs cs : List Char} (hne : xs ≠ [])
    (hx : ∀ x ∈ xs, p.has x = true) : xs.length ∈ lengths p (xs ++ cs) := by
  refine mem_lengths.mpr ⟨List.length_pos_iff.mpr hne, ?_⟩
  rw [List.takeWhile_append_of_pos hx, List.length_append]
  omega

theorem run_sound {as : List Atom} {b : Bool} {cs : List Char} {caps : List (List Char)}
    (h : run as b cs = some caps) : Matches as b cs caps := by
  induction as generalizing b cs caps with
  | nil =>
    simp only [run] at h
    split_ifs at h with hc
    subst hc
    obtain rfl : [] = caps := Option.some.inj h
    exact .nil b
  | cons a as ih =>
    cases a with
    | bol =>
      simp only [run] at h
      split_ifs at h with hb
      subst hb
      exact .bol (ih h)
    | eol =>
      simp only [run] at h
      split_ifs at h with hc
      subst hc
      exact .eol (ih h)
    | chr c =>
      cases cs with
      | nil => simp [run] at h
      | cons x xs =>
        simp only [run] at h
        split_ifs at h with hx
        subst hx
        exact .chr (ih h)
    | cls p =>
      cases cs with
      | nil => simp [run] at h
      | cons x xs =>
        simp only [run] at h
        split_ifs at h with hx
        exact .cls hx (ih h)
    | plus p =>
      obtain ⟨n, hn, hr⟩ := List.exists_of_findSome?_eq_some h
      obtain ⟨hne, hx⟩ := take_of_mem_lengths hn
      have hm := Matches.plus (b := b) hne hx (ih hr)
      rwa [List.take_append_drop] at hm
    | group p =>
      obtain ⟨n, hn, hr⟩ := List.exists_of_findSome?_eq_some h
      obtain ⟨caps', hr', rfl⟩ := Option.map_eq_some_iff.mp hr
      obtain ⟨hne, hx⟩ := take_of_mem_lengths hn
      have hm := Matches.group (b := b) hne hx (ih hr')
      rwa [List.take_append_drop] at hm

theorem run_isSome_of_matches {as : List Atom} {b : Bool} {cs : List Char}
    {caps : List (List Char)} (h : Matches as b cs caps) : (run as b cs).isSome := by
  induction h with
  | nil b => rfl
  | bol _ ih => simpa [run] using ih
  | eol _ ih => simpa [run] using ih
  | chr _ ih => simpa [run] using ih
  | cls hc _ ih => simpa [run, hc] using ih
  | plus hne hx _ ih =>
    rw [run, List.findSome?_isSome_iff]
    exact ⟨_, length_mem_lengths hne hx, by simpa using ih⟩
  | group hne hx _ ih =>
    rw [run, List.findSome?_isSome_iff]
    exact ⟨_, length_mem_lengths hne hx, by simpa using ih⟩

/-! ## Inversion, atom by atom -/

@[simp] theorem matches_nil_iff {b : Bool} {cs : List Char} {caps : List (List Char)} :
    Matches [] b cs caps ↔ cs = [] ∧ caps = [] := by
  constructor
  · intro h; cases h; exact ⟨rfl, rfl⟩
  · rintro ⟨rfl, rfl⟩; exact .nil b

@[simp] theorem matches_bol_iff {as : List Atom} {b : Bool} {cs : List Char}
    {caps : List (List Char)} :
    Matches (.bol :: as) b cs caps ↔ b = true ∧ Matches as true cs caps := by
  constructor
  · intro h; cases h with | bol h => exact ⟨rfl, h⟩
  · rintro ⟨rfl, h⟩; exact .bol h

@[simp] theorem matches_eol_iff {as : List Atom} {b : Bool} {cs : List Char}
    {caps : List (List Char)} :
    Matches (.eol :: as) b cs caps ↔ cs = [] ∧ Matches as b [] caps := by
  constructor
  · intro h; cases h with | eol h => exact ⟨rfl, h⟩
  · rintro ⟨rfl, h⟩; exact .eol h

theorem matches_chr_iff {as : List Atom} {b : Bool} {c : Char} {cs : List Char}
    {caps : List (List Char)} :
    Matches (.chr c :: as) b cs caps ↔ ∃ rest, cs = c :: rest ∧ Matches as false rest caps := by
  constructor
  · intro h; cases h with | chr h => exact ⟨_, rfl, h⟩
  · rintro ⟨rest, rfl, h⟩; exact .chr h

theorem matches_cls_iff {as : List Atom} {b : Bool} {p : Cls} {cs : List Char}
    {caps : List (List Char)} :
    Matches (.cls p :: as) b cs caps ↔
      ∃ c rest, cs = c :: rest ∧ p.has c = true ∧ Matches as false rest caps := by
  constructor
  · intro h; cases h with | cls hc h => exact ⟨_, _, rfl, hc, h⟩
  · rintro ⟨c, rest, rfl, hc, h⟩; exact .cls hc h

theorem matches_plus_iff {as : List Atom} {b : Bool} {p : Cls} {cs : List Char}
    {caps : List (List Char)} :
    Matches (.plus p :: as) b cs caps ↔
      ∃ xs rest, cs = xs ++ rest ∧ xs ≠ [] ∧ (∀ x ∈ xs, p.has x = true) ∧
        Matches as false rest caps := by
  constructor
  · intro h; cases h with | plus hne hx h => exact ⟨_, _, rfl, hne, hx, h⟩
  · rintro ⟨xs, rest, rfl, hne, hx, h⟩; exact .plus hne hx h

theorem matches_group_iff {as : List Atom} {b : Bool} {p : Cls} {cs : List Char}
    {caps : List (List Char)} :
    Matches (.group p :: as) b cs caps ↔
      ∃ xs rest caps', cs = xs ++ rest ∧ caps = xs :: caps' ∧ xs ≠ [] ∧
        (∀ x ∈ xs, p.has x = true) ∧ Matches as false rest caps' := by
  constructor
  · intro h; cases h with | group hne hx h => exact ⟨_, _, _, rfl, rfl, hne, hx, h⟩
  · rintro ⟨xs, rest, caps', rfl, rfl, hne, hx, h⟩; exact .group hne hx h

/-- A literal text in a pattern. -/
def lit (s : String) : List Atom := s.toList.map .chr

theorem matches_chrs_iff {l : List Char} (hl : l ≠ []) {as : List Atom} {b : Bool} {cs : List Char}
    {caps : List (List Char)} :
    Matches (l.map .chr ++ as) b cs caps ↔ ∃ rest, cs = l ++ rest ∧ Matches as false rest caps := by
  induction l generalizing b cs with
  | nil => exact absurd rfl hl
  | cons c l ih =>
    rw [List.map_cons, List.cons_append, matches_chr_iff]
    cases l with
    | nil => simp
    | cons d l =>
      constructor
      · rintro ⟨rest, rfl, h⟩
        obtain ⟨rest', rfl, h'⟩ := (ih (List.cons_ne_nil d l)).mp h
        exact ⟨rest', rfl, h'⟩
      · rintro ⟨rest, rfl, h⟩
        exact ⟨d :: l ++ rest, rfl, (ih (List.cons_ne_nil d l)).mpr ⟨rest, rfl, h⟩⟩

theorem matches_lit_iff {s : String} (hs : s.toList ≠ []) {as : List Atom} {b : Bool}
    {cs : List Char} {caps : List (List Char)} :
    Matches (lit s ++ as) b cs caps ↔
      ∃ rest, cs = s.toList ++ rest ∧ Matches as false rest caps :=
  matches_chrs_iff hs

/-! ## Segments -/

/-- Two texts cut at their first separator: the segments and the rests agree. -/
theorem seg_append_inj {c : Char} {xs ys r r' : List Char} (hx : c ∉ xs) (hy : c ∉ ys)
    (h : xs ++ c :: r = ys ++ c :: r') : xs = ys ∧ r = r' := by
  induction xs generalizing ys with
  | nil =>
    cases ys with
    | nil => exact ⟨rfl, (List.cons_eq_cons.mp h).2⟩
    | cons y ys =>
      obtain ⟨rfl, -⟩ := List.cons_eq_cons.mp h
      exact absurd List.mem_cons_self hy
  | cons x xs ih =>
    cases ys with
    | nil =>
      obtain ⟨rfl, -⟩ := List.cons_eq_cons.mp h
      exact absurd List.mem_cons_self hx
    | cons y ys =>
      obtain ⟨rfl, h'⟩ := List.cons_eq_cons.mp h
      obtain ⟨rfl, rfl⟩ := ih (fun hm => hx (List.mem_cons_of_mem _ hm))
        (fun hm => hy (List.mem_cons_of_mem _ hm)) h'
      exact ⟨rfl, rfl⟩

theorem not_mem_of_except {c : Char} {xs : List Char}
    (h : ∀ x ∈ xs, (Cls.except c).has x = true) : c ∉ xs := by
  intro hc
  have := h c hc
  simp [Cls.has] at this

theorem has_except_of_not_mem {c : Char} {xs : List Char} (h : c ∉ xs) :
    ∀ x ∈ xs, (Cls.except c).has x = true := by
  intro x hx
  have : x ≠ c := fun he => h (he ▸ hx)
  simpa [Cls.has] using this

end Lib.Regex
