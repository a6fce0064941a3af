import Webvirtd.Http.Router

/-!
# App.Targets — the request targets that the app accepts

`Endpoint.Accepts` is the grammar: a target without a trailing slash is redirected, and the others are
`/users/<user>/<suffix>/` or `/users/<user>/domains/<domain>/<tail>`.  The patterns that the endpoints are
registered under match exactly that (`location_endpoint`), no two of them the same target
(`accepts_unique`).
-/

namespace Webvirtd.App

open Lib Http

/-- The routes below a user. -/
inductive UserRoute
  | websocket | host | networks | domains
  deriving DecidableEq, Repr

/-- The routes below a domain. -/
inductive DomainRoute
  | show | autostart | metadata | bootmenu | start | shutdown
  deriving DecidableEq, Repr

inductive Endpoint
  | redirect
  | user (s : UserRoute)
  | domain (a : DomainRoute)
  deriving DecidableEq, Repr

def UserRoute.suffix : UserRoute → String
  | .websocket => "websocket"
  | .host => "host"
  | .networks => "host/networks"
  | .domains => "domains"

/-- What follows the name of the domain and its slash. -/
def DomainRoute.tail : DomainRoute → String
  | .show => ""
  | .autostart => "autostart/"
  | .metadata => "metadata/"
  | .bootmenu => "bootmenu/"
  | .start => "start/"
  | .shutdown => "shutdown/"

/-- A non-empty text without a slash. -/
def Segment (s : String) : Prop := s.toList ≠ [] ∧ '/' ∉ s.toList

/-- The targets of an endpoint, with the captures that its handler receives. -/
def Endpoint.Accepts : Endpoint → (target : String) → (captures : List String) → Prop
  | .redirect, target, captures =>
    captures = [] ∧ 2 ≤ target.toList.length ∧ target.toList.getLast? ≠ some '/'
  | .user s, target, captures => ∃ user, Segment user ∧ captures = [user] ∧
    target = "/users/" ++ user ++ "/" ++ s.suffix ++ "/"
  | .domain a, target, captures => ∃ user domain, Segment user ∧ Segment domain ∧
    captures = [user, domain] ∧ target = "/users/" ++ user ++ "/domains/" ++ domain ++ "/" ++ a.tail

def UserRoute.pattern : UserRoute → String
  | .websocket => "^/users/([^/]+)/websocket/"
  | .host => "^/users/([^/]+)/host/"
  | .networks => "^/users/([^/]+)/host/networks/"
  | .domains => "^/users/([^/]+)/domains/$"

def DomainRoute.pattern : DomainRoute → String
  | .show => "^/users/([^/]+)/domains/([^/]+)/$"
  | .autostart => "^/users/([^/]+)/domains/([^/]+)/autostart/$"
  | .metadata => "^/users/([^/]+)/domains/([^/]+)/metadata/$"
  | .bootmenu => "^/users/([^/]+)/domains/([^/]+)/bootmenu/$"
  | .start => "^/users/([^/]+)/domains/([^/]+)/start/$"
  | .shutdown => "^/users/([^/]+)/domains/([^/]+)/shutdown/"

/-- The pattern that the endpoint is registered under. -/
def Endpoint.pattern : Endpoint → String
  | .redirect => "^.+[^/]$"
  | .user s => s.pattern
  | .domain a => a.pattern

/-! ## What the patterns match -/

/-- `^/users/([^/]+)`, then `rest`. -/
def userPattern (rest : List Regex.Atom) : List Regex.Atom :=
  .bol :: (Regex.lit "/users/" ++ .group (.except '/') :: rest)

theorem matches_userPattern {rest : List Regex.Atom} {cs : List Char} {caps : List (List Char)} :
    Regex.Matches (userPattern rest) true cs caps ↔
      ∃ user tail caps', cs = "/users/".toList ++ (user ++ tail) ∧ caps = user :: caps' ∧
        user ≠ [] ∧ '/' ∉ user ∧ Regex.Matches rest false tail caps' := by
  unfold userPattern
  rw [Regex.matches_bol_iff, Regex.matches_lit_iff (by simp)]
  constructor
  · rintro ⟨-, cs', rfl, h⟩
    obtain ⟨user, tail, caps', rfl, rfl, hne, hall, h⟩ := Regex.matches_group_iff.mp h
    exact ⟨user, tail, caps', rfl, rfl, hne, Regex.not_mem_of_except hall, h⟩
  · rintro ⟨user, tail, caps', rfl, rfl, hne, hslash, h⟩
    exact ⟨rfl, _, rfl, Regex.matches_group_iff.mpr
      ⟨user, tail, caps', rfl, rfl, hne, Regex.has_except_of_not_mem hslash, h⟩⟩

theorem location_eq_some {pattern target : String} {re : List Regex.Atom} {m : List String}
    (hp : Regex.parse pattern = some re) (h : Router.location pattern target = some m) :
    ∃ caps, m = target :: caps.map String.ofList ∧ Regex.Matches re true target.toList caps := by
  unfold Router.location Regex.regexMatch at h
  rw [hp, Option.bind_some, Option.map_map, Option.map_eq_some_iff] at h
  obtain ⟨caps, hr, rfl⟩ := h
  exact ⟨caps, rfl, Regex.run_sound hr⟩

/-- The end of a pattern: a literal text, with or without the anchor. -/
def ending (text : String) (anchored : Bool) : List Regex.Atom :=
  Regex.lit text ++ if anchored then [.eol] else []

theorem matches_ending_iff {text : String} (ht : text.toList ≠ []) {anchored b : Bool}
    {cs : List Char} {caps : List (List Char)} :
    Regex.Matches (ending text anchored) b cs caps ↔ cs = text.toList ∧ caps = [] := by
  unfold ending
  rw [Regex.matches_lit_iff ht]
  constructor
  · rintro ⟨rest, rfl, h⟩
    cases anchored with
    | true =>
      obtain ⟨rfl, hnil⟩ := Regex.matches_eol_iff.mp h
      exact ⟨List.append_nil _, (Regex.matches_nil_iff.mp hnil).2⟩
    | false =>
      obtain ⟨rfl, rfl⟩ := Regex.matches_nil_iff.mp h
      exact ⟨List.append_nil _, rfl⟩
  · rintro ⟨rfl, rfl⟩
    refine ⟨[], (List.append_nil _).symm, ?_⟩
    cases anchored with
    | true => exact Regex.matches_eol_iff.mpr ⟨rfl, .nil _⟩
    | false => exact .nil _

/-- Whether the pattern ends in `$`. -/
def UserRoute.anchored : UserRoute → Bool
  | .domains => true
  | _ => false

def DomainRoute.anchored : DomainRoute → Bool
  | .shutdown => false
  | _ => true

/-- `^/users/([^/]+)/domains/([^/]+)/`, then the tail. -/
def domainPattern (a : DomainRoute) : List Regex.Atom :=
  userPattern (Regex.lit "/domains/" ++ .group (.except '/') :: ending ("/" ++ a.tail) a.anchored)

theorem parse_userRoute (s : UserRoute) : Regex.parse s.pattern =
    some (userPattern (ending ("/" ++ s.suffix ++ "/") s.anchored)) := by
  cases s with
  | _ => rfl

theorem parse_domainRoute (a : DomainRoute) : Regex.parse a.pattern = some (domainPattern a) := by
  cases a with
  | _ => rfl

theorem toList_ne_nil_of_append {a b : String} (h : a.toList ≠ []) : (a ++ b).toList ≠ [] := by
  rw [String.toList_append]
  exact List.append_ne_nil_of_left_ne_nil h _

/-- A pattern whose matches are described by `G`, which determines the captures. -/
theorem location_iff {pattern target : String} {re : List Regex.Atom} {G : List (List Char) → Prop}
    (hp : Regex.parse pattern = some re)
    (hG : ∀ caps, Regex.Matches re true target.toList caps ↔ G caps)
    (huniq : ∀ caps caps', G caps → G caps' → caps = caps') {m : List String} :
    Router.location pattern target = some m ↔
      ∃ caps, G caps ∧ m = target :: caps.map String.ofList := by
  constructor
  · intro h
    obtain ⟨caps, rfl, hm⟩ := location_eq_some hp h
    exact ⟨caps, (hG caps).mp hm, rfl⟩
  · rintro ⟨caps, hcaps, rfl⟩
    cases hl : Router.location pattern target with
    | none =>
      have hsome := Regex.run_isSome_of_matches ((hG caps).mpr hcaps)
      unfold Router.location Regex.regexMatch at hl
      rw [hp, Option.bind_some, Option.map_map, Option.map_eq_none_iff] at hl
      rw [hl] at hsome
      cases hsome
    | some m =>
      obtain ⟨caps', rfl, hm⟩ := location_eq_some hp hl
      rw [huniq caps caps' hcaps ((hG caps').mp hm)]

/-- A segment as a list of characters. -/
def SegmentChars (cs : List Char) : Prop := cs ≠ [] ∧ '/' ∉ cs

theorem segment_ofList {cs : List Char} (h : SegmentChars cs) : Segment (String.ofList cs) := by
  unfold Segment
  rw [String.toList_ofList]
  exact h

/-- The user of a target is determined by it. -/
theorem userPath_inj {u u' r r' : List Char} (hu : '/' ∉ u) (hu' : '/' ∉ u')
    (h : "/users/".toList ++ (u ++ '/' :: r) = "/users/".toList ++ (u' ++ '/' :: r')) :
    u = u' ∧ r = r' :=
  Regex.seg_append_inj hu hu' (List.append_cancel_left h)

theorem matches_userRoute_iff (s : UserRoute) {cs : List Char} {caps : List (List Char)} :
    Regex.Matches (userPattern (ending ("/" ++ s.suffix ++ "/") s.anchored)) true cs caps ↔
      ∃ user, SegmentChars user ∧ caps = [user] ∧
        cs = "/users/".toList ++ (user ++ '/' :: (s.suffix ++ "/").toList) := by
  have hne : ("/" ++ s.suffix ++ "/").toList ≠ [] :=
    toList_ne_nil_of_append (toList_ne_nil_of_append (by decide))
  have htext : ("/" ++ s.suffix ++ "/").toList = '/' :: (s.suffix ++ "/").toList := by
    rw [String.append_assoc, String.toList_append]
    rfl
  rw [matches_userPattern]
  constructor
  · rintro ⟨user, tail, caps', rfl, rfl, huser, hslash, h⟩
    obtain ⟨rfl, rfl⟩ := (matches_ending_iff hne).mp h
    exact ⟨user, ⟨huser, hslash⟩, rfl, by rw [htext]⟩
  · rintro ⟨user, ⟨huser, hslash⟩, rfl, rfl⟩
    refine ⟨user, ("/" ++ s.suffix ++ "/").toList, [], by rw [htext], rfl, huser, hslash, ?_⟩
    exact (matches_ending_iff hne).mpr ⟨rfl, rfl⟩

theorem matches_domainRoute_iff (a : DomainRoute) {cs : List Char} {caps : List (List Char)} :
    Regex.Matches (domainPattern a) true cs caps ↔
      ∃ user domain, SegmentChars user ∧ SegmentChars domain ∧ caps = [user, domain] ∧
        cs = "/users/".toList ++
          (user ++ '/' :: ("domains/".toList ++ (domain ++ '/' :: a.tail.toList))) := by
  have hne : ("/" ++ a.tail).toList ≠ [] := toList_ne_nil_of_append (by decide)
  have htext : ("/" ++ a.tail).toList = '/' :: a.tail.toList := by
    rw [String.toList_append]
    rfl
  unfold domainPattern
  rw [matches_userPattern]
  constructor
  · rintro ⟨user, tail, caps', rfl, rfl, huser, hslash, h⟩
    obtain ⟨rest, rfl, hgroup⟩ := (Regex.matches_lit_iff (by decide)).mp h
    obtain ⟨domain, rest', caps'', rfl, rfl, hdomain, hall, hend⟩ :=
      Regex.matches_group_iff.mp hgroup
    obtain ⟨rfl, rfl⟩ := (matches_ending_iff hne).mp hend
    refine ⟨user, domain, ⟨huser, hslash⟩, ⟨hdomain, Regex.not_mem_of_except hall⟩, rfl, ?_⟩
    rw [htext]
    rfl
  · rintro ⟨user, domain, ⟨huser, hslash⟩, ⟨hdomain, hdslash⟩, rfl, rfl⟩
    refine ⟨user, "/domains/".toList ++ (domain ++ ("/" ++ a.tail).toList), [domain], ?_, rfl, huser,
      hslash, ?_⟩
    · rw [htext]
      rfl
    · refine (Regex.matches_lit_iff (by decide)).mpr ⟨_, rfl, Regex.matches_group_iff.mpr ?_⟩
      refine ⟨domain, ("/" ++ a.tail).toList, [], rfl, rfl, hdomain,
        Regex.has_except_of_not_mem hdslash, ?_⟩
      exact (matches_ending_iff hne).mpr ⟨rfl, rfl⟩

theorem redirect_of_matches {cs : List Char} {caps : List (List Char)}
    (hm : Regex.Matches [.bol, .plus .any, .cls (.except '/'), .eol] true cs caps) :
    caps = [] ∧ 2 ≤ cs.length ∧ cs.getLast? ≠ some '/' := by
  obtain ⟨-, hplus⟩ := Regex.matches_bol_iff.mp hm
  obtain ⟨xs, rest, rfl, hne, -, hcls⟩ := Regex.matches_plus_iff.mp hplus
  obtain ⟨c, rest', rfl, hc, hend⟩ := Regex.matches_cls_iff.mp hcls
  obtain ⟨rfl, hnil⟩ := Regex.matches_eol_iff.mp hend
  have hc : c ≠ '/' := by simpa [Regex.Cls.has] using hc
  have hlen : 0 < xs.length := List.length_pos_iff.mpr hne
  refine ⟨(Regex.matches_nil_iff.mp hnil).2, ?_, ?_⟩
  · rw [List.length_append]
    simp only [List.length_cons, List.length_nil]
    omega
  · rw [List.getLast?_concat]
    exact fun h => hc (Option.some.inj h)

/-- Without line terminators `.` takes every character. -/
theorem matches_redirect_iff {cs : List Char} (hn : '\n' ∉ cs) (hr : '\r' ∉ cs)
    {caps : List (List Char)} :
    Regex.Matches [.bol, .plus .any, .cls (.except '/'), .eol] true cs caps ↔
      caps = [] ∧ 2 ≤ cs.length ∧ cs.getLast? ≠ some '/' := by
  constructor
  · exact redirect_of_matches
  · rintro ⟨rfl, hlen, hlast⟩
    obtain ⟨init, c, rfl⟩ : ∃ init c, cs = init ++ [c] :=
      ⟨cs.dropLast, cs.getLast (by rintro rfl; cases hlen), (List.dropLast_append_getLast _).symm⟩
    rw [List.getLast?_concat] at hlast
    have hc : c ≠ '/' := fun h => hlast (congrArg some h)
    refine Regex.matches_bol_iff.mpr ⟨rfl, Regex.matches_plus_iff.mpr ⟨init, [c], rfl, ?_, ?_, ?_⟩⟩
    · rintro rfl
      cases hlen with
      | step h => cases h
    · intro x hx
      have hxn : x ≠ '\n' := fun h => hn (List.mem_append_left _ (h ▸ hx))
      have hxr : x ≠ '\r' := fun h => hr (List.mem_append_left _ (h ▸ hx))
      simp [Regex.Cls.has, hxn, hxr]
    · refine Regex.matches_cls_iff.mpr ⟨c, [], rfl, by simpa [Regex.Cls.has] using hc, ?_⟩
      exact Regex.matches_eol_iff.mpr ⟨rfl, .nil _⟩

/-! ## The grammar -/

theorem userTarget_iff {target user : String} {s : UserRoute} :
    target = "/users/" ++ user ++ "/" ++ s.suffix ++ "/" ↔
      target.toList = "/users/".toList ++ (user.toList ++ '/' :: (s.suffix ++ "/").toList) := by
  rw [← String.toList_inj]
  simp only [String.toList_append, List.append_assoc]
  rfl

theorem domainTarget_iff {target user domain : String} {a : DomainRoute} :
    target = "/users/" ++ user ++ "/domains/" ++ domain ++ "/" ++ a.tail ↔
      target.toList = "/users/".toList ++
        (user.toList ++ '/' :: ("domains/".toList ++ (domain.toList ++ '/' :: a.tail.toList))) := by
  rw [← String.toList_inj]
  simp only [String.toList_append, List.append_assoc]
  rfl

theorem location_userRoute (s : UserRoute) {target : String} {m : List String} :
    Router.location s.pattern target = some m ↔
      ∃ captures, (Endpoint.user s).Accepts target captures ∧ m = target :: captures := by
  rw [location_iff (parse_userRoute s) (fun caps => matches_userRoute_iff s) ?_]
  · constructor
    · rintro ⟨caps, ⟨user, huser, rfl, ht⟩, rfl⟩
      have hlist : (String.ofList user).toList = user := String.toList_ofList
      refine ⟨_, ⟨String.ofList user, segment_ofList huser, rfl, ?_⟩, rfl⟩
      rw [userTarget_iff, hlist]
      exact ht
    · rintro ⟨captures, ⟨user, huser, rfl, ht⟩, rfl⟩
      exact ⟨[user.toList], ⟨_, huser, rfl, userTarget_iff.mp ht⟩, by simp⟩
  · rintro caps caps' ⟨user, huser, rfl, ht⟩ ⟨user', huser', rfl, ht'⟩
    rw [(userPath_inj huser.2 huser'.2 (ht.symm.trans ht')).1]

theorem location_domainRoute (a : DomainRoute) {target : String} {m : List String} :
    Router.location a.pattern target = some m ↔
      ∃ captures, (Endpoint.domain a).Accepts target captures ∧ m = target :: captures := by
  rw [location_iff (parse_domainRoute a) (fun caps => matches_domainRoute_iff a) ?_]
  · constructor
    · rintro ⟨caps, ⟨user, domain, huser, hdomain, rfl, ht⟩, rfl⟩
      have hlist : (String.ofList user).toList = user := String.toList_ofList
      have hlist' : (String.ofList domain).toList = domain := String.toList_ofList
      refine ⟨_, ⟨String.ofList user, String.ofList domain, segment_ofList huser,
        segment_ofList hdomain, rfl, ?_⟩, rfl⟩
      rw [domainTarget_iff, hlist, hlist']
      exact ht
    · rintro ⟨captures, ⟨user, domain, huser, hdomain, rfl, ht⟩, rfl⟩
      exact ⟨[user.toList, domain.toList],
        ⟨_, _, huser, hdomain, rfl, domainTarget_iff.mp ht⟩, by simp⟩
  · rintro caps caps' ⟨user, domain, huser, hdomain, rfl, ht⟩ ⟨user', domain', huser', hdomain', rfl, ht'⟩
    obtain ⟨rfl, hrest⟩ := userPath_inj huser.2 huser'.2 (ht.symm.trans ht')
    obtain ⟨rfl, -⟩ := Regex.seg_append_inj hdomain.2 hdomain'.2 (List.append_cancel_left hrest)
    rfl

theorem parse_redirect :
    Regex.parse "^.+[^/]$" = some [.bol, .plus .any, .cls (.except '/'), .eol] := rfl

/-- What a pattern matches, the grammar accepts. -/
theorem accepts_of_location {target : String} (e : Endpoint) {m : List String}
    (h : Router.location e.pattern target = some m) :
    ∃ captures, e.Accepts target captures ∧ m = target :: captures := by
  cases e with
  | redirect =>
    obtain ⟨caps, rfl, hm⟩ := location_eq_some parse_redirect h
    obtain ⟨rfl, hlast⟩ := redirect_of_matches hm
    exact ⟨[], ⟨rfl, hlast⟩, rfl⟩
  | user s => exact (location_userRoute s).mp h
  | domain a => exact (location_domainRoute a).mp h

/-- A pattern matches what the grammar says, with the captures that it says. -/
theorem location_endpoint {target : String} (hn : '\n' ∉ target.toList) (hr : '\r' ∉ target.toList)
    (e : Endpoint) {m : List String} :
    Router.location e.pattern target = some m ↔
      ∃ captures, e.Accepts target captures ∧ m = target :: captures := by
  refine ⟨accepts_of_location e, ?_⟩
  cases e with
  | redirect =>
    rintro ⟨captures, ⟨rfl, h⟩, rfl⟩
    refine (location_iff parse_redirect (fun caps => matches_redirect_iff hn hr)
      fun caps caps' h h' => h.1.trans h'.1.symm).mpr ?_
    exact ⟨[], ⟨rfl, h⟩, rfl⟩
  | user s => exact (location_userRoute s).mpr
  | domain a => exact (location_domainRoute a).mpr

theorem suffix_inj {s s' : UserRoute} (h : (s.suffix ++ "/").toList = (s'.suffix ++ "/").toList) :
    s = s' := by
  revert h
  cases s <;> cases s' <;> decide

theorem tail_inj {a a' : DomainRoute} (h : a.tail.toList = a'.tail.toList) : a = a' := by
  revert h
  cases a <;> cases a' <;> decide

/-- No suffix of a user is the path of a domain. -/
theorem suffix_ne_domain (s : UserRoute) {domain : List Char} (hd : domain ≠ []) (rest : List Char) :
    (s.suffix ++ "/").toList ≠ "domains/".toList ++ (domain ++ '/' :: rest) := by
  intro h
  cases s with
  | websocket => exact absurd (List.cons_eq_cons.mp h).1 (by decide)
  | host => exact absurd (List.cons_eq_cons.mp h).1 (by decide)
  | networks => exact absurd (List.cons_eq_cons.mp h).1 (by decide)
  | domains =>
    have hnil : [] = domain ++ '/' :: rest :=
      List.append_cancel_left (show "domains/".toList ++ [] = _ by rw [← h]; rfl)
    exact hd (List.append_eq_nil_iff.mp hnil.symm).1

/-- Targets below a user end in a slash. -/
theorem getLast?_userRoute {target user : String} {s : UserRoute}
    (ht : target = "/users/" ++ user ++ "/" ++ s.suffix ++ "/") :
    target.toList.getLast? = some '/' := by
  rw [ht, String.toList_append, List.getLast?_append]
  rfl

theorem getLast?_domainRoute {target user domain : String} {a : DomainRoute}
    (ht : target = "/users/" ++ user ++ "/domains/" ++ domain ++ "/" ++ a.tail) :
    target.toList.getLast? = some '/' := by
  rw [ht, String.toList_append, List.getLast?_append]
  cases a with
  | «show» =>
    rw [String.toList_append, List.getLast?_append]
    rfl
  | _ => rfl

theorem redirect_of_getLast? {e : Endpoint} {target : String} {captures : List String}
    (hlast : target.toList.getLast? ≠ some '/') (h : e.Accepts target captures) : e = .redirect := by
  cases e with
  | redirect => rfl
  | user s =>
    obtain ⟨user, -, -, ht⟩ := h
    exact absurd (getLast?_userRoute ht) hlast
  | domain a =>
    obtain ⟨user, domain, -, -, -, ht⟩ := h
    exact absurd (getLast?_domainRoute ht) hlast

/-- A target belongs to at most one endpoint, with one list of captures. -/
theorem accepts_unique {e e' : Endpoint} {target : String} {captures captures' : List String}
    (h : e.Accepts target captures) (h' : e'.Accepts target captures') :
    e = e' ∧ captures = captures' := by
  cases e with
  | redirect =>
    obtain ⟨rfl, -, hlast⟩ := h
    exact ⟨(redirect_of_getLast? hlast h').symm, ((redirect_of_getLast? hlast h') ▸ h').1.symm⟩
  | user s =>
    obtain ⟨user, huser, rfl, ht⟩ := h
    cases e' with
    | redirect => exact absurd (getLast?_userRoute ht) h'.2.2
    | user s' =>
      obtain ⟨user', huser', rfl, ht'⟩ := h'
      have heq := (userTarget_iff.mp ht).symm.trans (userTarget_iff.mp ht')
      obtain ⟨hu, hrest⟩ := userPath_inj huser.2 huser'.2 heq
      rw [suffix_inj hrest, String.toList_inj.mp hu]
      exact ⟨rfl, rfl⟩
    | domain a =>
      obtain ⟨user', domain, huser', hdomain, rfl, ht'⟩ := h'
      have heq := (userTarget_iff.mp ht).symm.trans (domainTarget_iff.mp ht')
      exact absurd (userPath_inj huser.2 huser'.2 heq).2 (suffix_ne_domain s hdomain.1 _)
  | domain a =>
    obtain ⟨user, domain, huser, hdomain, rfl, ht⟩ := h
    cases e' with
    | redirect => exact absurd (getLast?_domainRoute ht) h'.2.2
    | user s =>
      obtain ⟨user', huser', rfl, ht'⟩ := h'
      have heq := (userTarget_iff.mp ht').symm.trans (domainTarget_iff.mp ht)
      exact absurd (userPath_inj huser'.2 huser.2 heq).2 (suffix_ne_domain s hdomain.1 _)
    | domain a' =>
      obtain ⟨user', domain', huser', hdomain', rfl, ht'⟩ := h'
      have heq := (domainTarget_iff.mp ht).symm.trans (domainTarget_iff.mp ht')
      obtain ⟨hu, hrest⟩ := userPath_inj huser.2 huser'.2 heq
      obtain ⟨hd, htail⟩ := Regex.seg_append_inj hdomain.2 hdomain'.2 (List.append_cancel_left hrest)
      rw [tail_inj htail, String.toList_inj.mp hu, String.toList_inj.mp hd]
      exact ⟨rfl, rfl⟩

end Webvirtd.App
