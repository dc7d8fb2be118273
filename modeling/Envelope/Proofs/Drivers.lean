import Envelope.Kms.Directory
import Mathlib.Tactic.ByContra

/-!
# The drivers of a directory

An address is resolved by weighing the drivers that claim it one after the other.
There is a driver for an address if one claims it, and none that claims it has a
longer claim than the one that is chosen.
-/

namespace Envelope
namespace Kms
namespace Directory

variable {σ : Type} {k k' : Directory σ} {driver : Driver σ} {drivers : List (Driver σ)}
  {url : String}

/-- The preferred one of two drivers is one of them, and neither has a longer
claim. -/
theorem exists_preferred (best driver : Driver σ) :
    ∃ b, preferred (some best) driver = some b ∧ (b = best ∨ b = driver) ∧
      best.urlPrefix.length ≤ b.urlPrefix.length ∧
      driver.urlPrefix.length ≤ b.urlPrefix.length := by
  by_cases hlonger : best.urlPrefix.length ≤ driver.urlPrefix.length
  · exact ⟨driver, if_pos hlonger, .inr rfl, hlonger, Nat.le_refl _⟩
  · exact ⟨best, if_neg hlonger, .inl rfl, Nat.le_refl _, Nat.le_of_not_le hlonger⟩

/-- Of drivers that are weighed one after the other one is left, and none of them
has a longer claim. -/
theorem exists_foldl_preferred (best : Driver σ) (drivers : List (Driver σ)) :
    ∃ driver ∈ best :: drivers, drivers.foldl preferred (some best) = some driver ∧
      ∀ d ∈ best :: drivers, d.urlPrefix.length ≤ driver.urlPrefix.length := by
  induction drivers generalizing best with
  | nil =>
    refine ⟨best, List.mem_singleton_self best, rfl, ?_⟩
    intro d hd
    obtain rfl := List.mem_singleton.mp hd
    exact Nat.le_refl _
  | cons head rest ih =>
    obtain ⟨b, hb, hbest, hlonger, hlonger'⟩ := exists_preferred best head
    obtain ⟨driver, hmem, hfold, hlongest⟩ := ih b
    have hdriver : b.urlPrefix.length ≤ driver.urlPrefix.length := hlongest b List.mem_cons_self
    refine ⟨driver, ?_, ?_, ?_⟩
    · rcases List.mem_cons.mp hmem with rfl | hrest
      · rcases hbest with rfl | rfl
        · exact List.mem_cons_self
        · exact List.mem_cons_of_mem _ List.mem_cons_self
      · exact List.mem_cons_of_mem _ (List.mem_cons_of_mem _ hrest)
    · rw [List.foldl_cons, hb]
      exact hfold
    · intro d hd
      rcases List.mem_cons.mp hd with rfl | hd
      · exact Nat.le_trans hlonger hdriver
      · rcases List.mem_cons.mp hd with rfl | hrest
        · exact Nat.le_trans hlonger' hdriver
        · exact hlongest d (List.mem_cons_of_mem _ hrest)

/-- An address that a driver claims is resolved to one of those that claim it,
and none of these has a longer claim. -/
theorem exists_resolve (h : ∃ driver ∈ k.drivers, claims driver.urlPrefix url = true) :
    ∃ driver ∈ k.drivers, claims driver.urlPrefix url = true ∧ k.resolve url = .ok driver ∧
      ∀ d ∈ k.drivers, claims d.urlPrefix url = true →
        d.urlPrefix.length ≤ driver.urlPrefix.length := by
  obtain ⟨claimant, hclaimant⟩ := h
  have hmem (d : Driver σ) : d ∈ k.drivers.filter (fun d => claims d.urlPrefix url) ↔
      d ∈ k.drivers ∧ claims d.urlPrefix url = true := List.mem_filter
  unfold resolve
  cases hclaiming : k.drivers.filter fun d => claims d.urlPrefix url with
  | nil =>
    rw [← hmem, hclaiming] at hclaimant
    cases hclaimant
  | cons head rest =>
    obtain ⟨driver, hdriver, hfold, hlongest⟩ := exists_foldl_preferred head rest
    rw [← hclaiming] at hdriver hlongest
    obtain ⟨hdriver, hclaims⟩ := (hmem driver).mp hdriver
    refine ⟨driver, hdriver, hclaims, ?_, fun d hd hd' => hlongest d ((hmem d).mpr ⟨hd, hd'⟩)⟩
    have hweighed : (head :: rest).foldl preferred none = some driver := hfold
    rw [hweighed]

/-- An address that no driver claims is refused for this reason. -/
theorem resolve_of_unclaimed (h : ¬ ∃ driver ∈ k.drivers, claims driver.urlPrefix url = true) :
    k.resolve url = .error (.noDriver url) := by
  have hnone : k.drivers.filter (fun d => claims d.urlPrefix url) = [] := by
    apply List.filter_eq_nil_iff.mpr
    intro d hd hclaims
    exact h ⟨d, hd, hclaims⟩
  unfold resolve
  rw [hnone]
  rfl

/-- An address has a driver if and only if some driver claims it. -/
theorem exists_resolve_iff :
    (∃ driver, k.resolve url = .ok driver) ↔
      ∃ driver ∈ k.drivers, claims driver.urlPrefix url = true := by
  constructor
  · rintro ⟨driver, h⟩
    by_contra hunclaimed
    rw [resolve_of_unclaimed hunclaimed] at h
    cases h
  · intro h
    obtain ⟨driver, -, -, hdriver, -⟩ := exists_resolve h
    exact ⟨driver, hdriver⟩

/-- The driver of an address is one of those that claim it, and none of these
has a longer claim. -/
theorem resolve_longest (h : k.resolve url = .ok driver) :
    driver ∈ k.drivers ∧ claims driver.urlPrefix url = true ∧
      ∀ d ∈ k.drivers, claims d.urlPrefix url = true →
        d.urlPrefix.length ≤ driver.urlPrefix.length := by
  obtain ⟨driver', hmem, hclaims, hdriver, hlongest⟩ :=
    exists_resolve (exists_resolve_iff.mp ⟨driver, h⟩)
  obtain rfl := Except.ok.inj (h.symm.trans hdriver)
  exact ⟨hmem, hclaims, hlongest⟩

/-- The driver of an address is one of the drivers. -/
theorem mem_of_resolve (h : k.resolve url = .ok driver) : driver ∈ k.drivers :=
  (resolve_longest h).1

/-- An address is refused for lack of a driver only. -/
theorem resolve_error {e : Error} (h : k.resolve url = .error e) : e = .noDriver url := by
  unfold resolve at h
  split at h
  · cases h
  · exact (Except.error.inj h).symm

theorem resolve_of_drivers (h : k'.drivers = k.drivers) (url : String) :
    k'.resolve url = k.resolve url := by
  unfold resolve
  rw [h]

end Directory
end Kms
end Envelope
