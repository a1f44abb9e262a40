import WaitingRoom.Lambda.NoJs
import WaitingRoom.Page.Destination
import WaitingRoom.Text.References

/-!
# Whether an admitted visitor stays on the site

The page's script and the queue without a script both check where an admitted visitor is sent, and a
browser resolves it against the site's address. Without a script the visitor always stays on the site
(`safeNext_own`). The script looks at the second letter only, and a browser drops tabs and line
breaks: the visitor stays unless such breaks hide a second slash, for an authority that is not the
site's own (`admitted_stays_iff`). With `/%09/evil.example` the visitor leaves (`tab_leaves`).
-/

set_option autoImplicit false

namespace WaitingRoom.Page

open Text Edge

variable {σ : Type}

/-! ## Without a script -/

theorem isControl_of_isBreak {c : Char} (here : isBreak Char.toNat c) : NoJs.isControl c := by
  rw [isBreak, decide_eq_true_eq] at here
  rw [NoJs.isControl, Bool.or_eq_true, decide_eq_true_eq]
  omega

theorem isSlash_char {c : Char} (slash : isSlash Char.toNat c) : c = '/' ∨ c = '\\' := by
  rw [isSlash, decide_eq_true_eq] at slash
  exact slash.imp (fun code => toNat_char_injective code) fun code => toNat_char_injective code

/-- A path without controls and without a second slash names the site itself. -/
theorem resolve_onSite (hosts : Hosts Char σ) (site : σ) {path : String} (onSite : NoJs.OnSite path) :
    Text.resolve Char.toNat hosts site path.toList = some site := by
  obtain ⟨rooted, second, plain⟩ := onSite
  rw [← List.head?_eq_getElem?] at rooted
  obtain ⟨rest, whole⟩ := List.head?_eq_some_iff.mp rooted
  rw [whole] at second plain ⊢
  refine resolve_own (by decide) fun breaks mark behind split all slash => ?_
  cases breaks with
  | nil =>
      rw [split] at second
      rcases isSlash_char slash with rfl | rfl
      · exact second.1 rfl
      · exact second.2 rfl
  | cons first breaks =>
      have control := isControl_of_isBreak (all first List.mem_cons_self)
      have none := List.any_eq_false.mp plain first (by rw [split]; simp)
      exact none control

/-- **Without a script the visitor stays**, whatever the query said. -/
theorem safeNext_own (hosts : Hosts Char σ) (site : σ) (raw : Option String) :
    Text.resolve Char.toNat hosts site (NoJs.safeNext raw).toList = some site :=
  resolve_onSite hosts site (NoJs.onSite_safeNext raw)

/-! ## With the script -/

/-- The `next` of an address, decoded. -/
def decodedNext (search : Units) : Option Units :=
  (nextMatch search).bind fun component => (decodeURIComponent component).toOption

theorem nextDestination_eq (search : Units) : nextDestination search =
    match decodedNext search with
    | none => utf16 "/"
    | some next =>
        if next[0]? ≠ some 47 ∨ next[1]? = some 47 ∨ next[1]? = some 92 then utf16 "/" else next := by
  rw [nextDestination, decodedNext]
  cases nextMatch search with
  | none => rfl
  | some component =>
      simp only [Option.bind_some]
      cases decodeURIComponent component with
      | error error => rfl
      | ok next => rfl

theorem resolve_root (hosts : Hosts UInt16 σ) (site : σ) :
    Text.resolve UInt16.toNat hosts site (utf16 "/") = some site := by
  have units : utf16 "/" = [47] := by decide
  rw [units]
  exact resolve_own (by decide) fun breaks mark behind split => by simp at split

theorem isSlash_unit {unit : UInt16} : isSlash UInt16.toNat unit ↔ unit = 47 ∨ unit = 92 := by
  rw [isSlash, decide_eq_true_eq]
  exact or_congr (UInt16.toNat_inj (b := 47)) (UInt16.toNat_inj (b := 92))

/-- **What the script accepts stays on the site**, unless breaks hide a second slash for an authority
that is not the site's own. -/
theorem resolve_accepted_iff (hosts : Hosts UInt16 σ) (site : σ) {rest : Units}
    (accepted : rest[0]? ≠ some 47 ∧ rest[0]? ≠ some 92) :
    Text.resolve UInt16.toNat hosts site (47 :: rest) = some site ↔
      ∀ breaks mark behind, rest = breaks ++ mark :: behind → breaks ≠ [] →
        (∀ b ∈ breaks, isBreak UInt16.toNat b) → isSlash UInt16.toNat mark →
        hosts.authority (authorityText UInt16.toNat behind) = some site := by
  constructor
  · rintro stays breaks mark behind rfl - all slash
    rwa [resolve_apart (by decide) all slash] at stays
  · intro hidden
    by_cases apart : ∃ breaks mark behind, rest = breaks ++ mark :: behind ∧
        (∀ b ∈ breaks, isBreak UInt16.toNat b) ∧ isSlash UInt16.toNat mark
    · obtain ⟨breaks, mark, behind, rfl, all, slash⟩ := apart
      have some' : breaks ≠ [] := by
        rintro rfl
        rcases isSlash_unit.mp slash with rfl | rfl
        · exact accepted.1 rfl
        · exact accepted.2 rfl
      rw [resolve_apart (by decide) all slash]
      exact hidden breaks mark behind rfl some' all slash
    · refine resolve_own (by decide) fun breaks mark behind split all slash => ?_
      exact apart ⟨breaks, mark, behind, split, all, slash⟩

/-- **Whether an admitted visitor stays on the site.** Without a script always; with it, exactly when
the decoded `next` does not have breaks and then a second slash behind its first, for an authority
that is not the site's own. -/
theorem admitted_stays_iff (unitHosts : Hosts UInt16 σ) (charHosts : Hosts Char σ) (site : σ)
    (search : Units) (raw : Option String) :
    (Text.resolve UInt16.toNat unitHosts site (nextDestination search) = some site ∧
      Text.resolve Char.toNat charHosts site (NoJs.safeNext raw).toList = some site) ↔
    ∀ breaks mark behind, decodedNext search = some (47 :: (breaks ++ mark :: behind)) →
      breaks ≠ [] → (∀ b ∈ breaks, isBreak UInt16.toNat b) → isSlash UInt16.toNat mark →
      unitHosts.authority (authorityText UInt16.toNat behind) = some site := by
  rw [and_iff_left (safeNext_own charHosts site raw), nextDestination_eq]
  cases decodedNext search with
  | none => exact ⟨fun _ => nofun, fun _ => resolve_root unitHosts site⟩
  | some next =>
      simp only [Option.some.injEq]
      split_ifs with refused
      · refine ⟨fun _ breaks mark behind split some' all slash => ?_,
          fun _ => resolve_root unitHosts site⟩
        -- a break is neither of the slashes that are refused
        obtain ⟨first, breaks, rfl⟩ := List.exists_cons_of_ne_nil some'
        have here := all first List.mem_cons_self
        subst split
        rcases refused with other | same | same
        · exact absurd rfl other
        · obtain rfl : first = 47 := Option.some.inj same
          exact absurd here (by decide)
        · obtain rfl : first = 92 := Option.some.inj same
          exact absurd here (by decide)
      · rw [not_or, not_or, not_not, ← List.head?_eq_getElem?] at refused
        obtain ⟨rest, rfl⟩ := List.head?_eq_some_iff.mp refused.1
        rw [resolve_accepted_iff unitHosts site refused.2]
        simp only [List.cons.injEq, true_and]

/-- Hosts that are named by plain letters. -/
def plainHosts : Hosts UInt16 Units := ⟨some, fun _ rest => some rest⟩

/-- **A tab between two slashes leaves the site.** -/
theorem tab_leaves :
    nextDestination (utf16 "?next=/%09/evil.example/phish") = utf16 "/\t/evil.example/phish" ∧
    Text.resolve UInt16.toNat plainHosts (utf16 "shop.example")
      (nextDestination (utf16 "?next=/%09/evil.example/phish")) = some (utf16 "evil.example") ∧
    utf16 "evil.example" ≠ utf16 "shop.example" := by
  decide +kernel

end WaitingRoom.Page
