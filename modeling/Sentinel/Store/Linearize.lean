import Sentinel.Store.Policy
import Sentinel.Store.Timeline
import Sentinel.Store.Versions

/-! What a classification sees of the store that it shares with writers, reclamation and
shutdown: the policy as it was published when it took its reference. -/
namespace Sentinel

open Transition

/-- The rules of the abstract store, as a set. -/
def PolicyStore.ruleSet (p : PolicyStore) : Set Rule := {r | p.rules.lookup r.ruleId = some r}

namespace Concurrent

variable {s t u : State} {as : List Action} {rs rs' : List Request} {id id' : SnapId}
  {r : RuntimeState} {rates : RateTable} {p : PolicyStore}

/-- Evaluation of the snapshot succeeds with the verdict of the policy, which is the only one. -/
def State.Serves (u : State) (id : SnapId) (p : PolicyStore) : Prop :=
  ∀ tuple now, ∃ out rates, ruleVerdict (some (u.snap id)) tuple now u.rates = some (out, rates) ∧
    ∀ out' rates', PolicyVerdict p.ruleSet p.defaultPolicy tuple now u.rates out' rates' ↔
      out' = out ∧ rates' = rates

/-- The map of distinct rules has just them as its rules. -/
theorem ruleSet_abstract (hw : (s.snap id).WellFormed) :
    (s.view id).abstract.ruleSet = {r | r ∈ (s.snap id).rules} := by
  ext x
  constructor
  · intro hx
    exact ((Keyed.lookup_toMap hw.ids).mp hx).1
  · intro hx
    exact (Keyed.lookup_toMap hw.ids).mpr ⟨hx, rfl⟩

/-- A well-formed snapshot serves what it abstracts to. -/
theorem serves_view (hw : (u.snap id).WellFormed) : u.Serves id (u.view id).abstract := by
  intro tuple now
  have hsome : (ruleVerdict (some (u.snap id)) tuple now u.rates).isSome = true :=
    ruleVerdict_isSome fun x hx ha => (hw.valid x hx).rateIntervalMs_ne ha
  obtain ⟨⟨out, rates⟩, hv⟩ := Option.isSome_iff_exists.mp hsome
  refine ⟨out, rates, hv, ?_⟩
  intro out' rates'
  rw [ruleSet_abstract hw]
  change PolicyVerdict _ (u.snap id).defaultPolicy tuple now u.rates out' rates' ↔ _
  rw [← ruleVerdict_iff hw, hv]
  constructor
  · intro he
    cases he
    exact ⟨rfl, rfl⟩
  · rintro ⟨rfl, rfl⟩
    rfl

/-- Whatever happens after a snapshot has been current, while it is held it serves the policy of
that time. -/
theorem serves_later (hs : system.Reachable s) (hcur : s.current = some id)
    (hr : system.Run s as u) (hu : id ∈ u.held) :
    id ∉ u.freed ∧ u.Serves id (s.view id).abstract := by
  obtain ⟨hi, hc⟩ := contents_reachable hs
  obtain ⟨-, ht⟩ := timeline_reachable hs
  have hi' := invariant_reachable (hs.run hr)
  refine ⟨hi'.not_freed (hi'.live id hu), ?_⟩
  obtain ⟨-, he⟩ := snap_run hr (ht.published (ht.current_mem hcur))
  have hw : (u.snap id).WellFormed := by
    rw [he]
    exact hc.wellFormed id (hi.current_lt hcur)
  have hsame : (u.view id).abstract.ruleSet = (s.view id).abstract.ruleSet := by
    simp only [PolicyStore.ruleSet, Store.abstract, State.view, he]
  have hpolicy : (u.view id).abstract.defaultPolicy = (s.view id).abstract.defaultPolicy :=
    congrArg Snapshot.defaultPolicy he
  have hserves := serves_view hw
  unfold State.Serves at hserves ⊢
  rwa [hsame, hpolicy] at hserves

/-- A classification is as if it had happened at once when it took its reference: the policy it
serves is that of the requests published till then, in their order, whatever is published,
rolled back or shut down before it evaluates; and one that takes its reference later serves
what the requests published in between have made of that policy. -/
theorem acquire_linearizes (hh : History (.start r rates) rs s) (hcur : s.current = some id) :
    ∃ p, PolicyStore.system.Run .start (rs.map fun req => ⟨req, .granted⟩) p ∧
      p.version = UInt64.ofNat rs.length ∧
      (∀ as u, system.Run s.acquire as u → id ∈ u.held → id ∉ u.freed ∧ u.Serves id p) ∧
      ∀ rs' t id', History s.acquire rs' t → t.current = some id' →
        ∃ p', PolicyStore.system.Run p (rs'.map fun req => ⟨req, .granted⟩) p' ∧
          p'.version = p.version + UInt64.ofNat rs'.length ∧
          ∀ as u, system.Run t.acquire as u → id' ∈ u.held →
            id' ∉ u.freed ∧ u.Serves id' p' := by
  have hversion : ∀ {s : State} {id : SnapId}, s.current = some id →
      (s.view id).abstract.version = s.version := by
    intro s id hcur
    simp [Store.abstract, State.view, State.version, hcur]
  have hstart : system.Reachable (.start r rates) := .of_init ⟨r, rates, rfl⟩
  obtain ⟨as, hrun⟩ := hh.run
  have hs : system.Reachable s := hstart.run hrun
  obtain ⟨hi, hc⟩ := contents_reachable hs
  refine ⟨(s.view id).abstract, ?_, ?_,
    fun as u hr hu => serves_later hs hcur (.head .acquire hr) hu, ?_⟩
  · exact policy_history hh (invariant_start r rates) (contents_start r rates) rfl hcur
  · rw [hversion hcur, version_history hh (invariant_start r rates) (by rw [hcur]; rfl)]
    simp [State.version, State.start]
  · intro rs' t id' hh' hcur'
    have hh'' : History s rs' t := .step .acquire hh'
    obtain ⟨as', hrun'⟩ := hh''.run
    refine ⟨(t.view id').abstract, policy_history hh'' hi hc hcur hcur', ?_,
      fun as u hr hu => serves_later (hs.run hrun') hcur' (.head .acquire hr) hu⟩
    rw [hversion hcur', hversion hcur]
    exact version_history hh'' hi (by rw [hcur']; rfl)

/-- A reader has taken the rule set with one rule, and a Clear is published before it evaluates. -/
def clearedMeanwhile : State :=
  (((ruleAdded.acquire.advance.advance.begin .clear true true).advance).advance).advance

theorem acquire_linearizes_clearedMeanwhile :
    clearedMeanwhile.current = some 2 ∧ (clearedMeanwhile.snap 2).rules = [] ∧
      ∃ p, p.version = 1 ∧ clearedMeanwhile.Serves 1 p := by
  obtain ⟨p, -, hv, hserves, -⟩ := acquire_linearizes ruleAdded_history
    (show ruleAdded.current = some 1 from rfl)
  have hcall : system.step ruleAdded.acquire.advance.advance (.call .clear true true)
      (ruleAdded.acquire.advance.advance.begin .clear true true) := .call rfl
  have hrun : system.Run ruleAdded.acquire _ clearedMeanwhile :=
    .head .advance (.head .advance (.head hcall
      (.head .advance (.head .advance (.head .advance .refl)))))
  exact ⟨rfl, rfl, p, hv, (hserves _ _ hrun (Multiset.mem_singleton_self 1)).2⟩

end Concurrent

end Sentinel
