import Intcode.Chain.Search
import Intcode.Proofs.ChainEndings
import Intcode.Proofs.Orderings

/-!
# The search for the best phase setting is exact

The search runs the chain of one ordering after the other and keeps the best setting so far. What it
keeps is the first of the orderings tried that reach the greatest signal. That holds before the
first one, and an ordering that is tried next either surpasses it, and is then the first with its
signal, or leaves it in place. The first chain that fails ends the search with its error, and none
of the later ones is run.
-/

set_option autoImplicit false

namespace Intcode.Chain

/-! ## The leader so far -/

/-- Of these orderings, this setting is the first that reaches the greatest signal; there is none
only before the first ordering. -/
def Leads (program : Program) (feedback : Bool) (tried : List (List Int)) :
    Option Setting → Prop
  | none => tried = []
  | some setting => ∃ earlier later, tried = earlier ++ setting.phases :: later ∧
      Gives program feedback setting.phases (.ok setting.signal) ∧
      (∀ phases ∈ earlier, ∀ signal, Gives program feedback phases (.ok signal) →
        signal < setting.signal) ∧
      ∀ phases ∈ later, ∀ signal, Gives program feedback phases (.ok signal) →
        signal ≤ setting.signal

section Leader

variable {program : Program} {feedback : Bool} {tried : List (List Int)}

theorem leads_greatest {setting : Setting} (leads : Leads program feedback tried (some setting)) :
    ∀ phases ∈ tried, ∀ signal, Gives program feedback phases (.ok signal) →
      signal ≤ setting.signal := by
  obtain ⟨earlier, later, rfl, reached, less, lessOrEqual⟩ := leads
  intro phases member signal gives
  rcases List.mem_append.mp member with before | here
  · exact Int.le_of_lt (less phases before signal gives)
  · rcases List.mem_cons.mp here with rfl | behind
    · have same := Except.ok.inj (gives.unique reached)
      omega
    · exact lessOrEqual phases behind signal gives

theorem head_or_among {first other : List Int} {later between rest : List (List Int)}
    (split : first :: later = between ++ other :: rest) : first = other ∨ first ∈ between := by
  cases between with
  | nil => exact .inl (List.cons.inj split).1
  | cons head between =>
      rw [(List.cons.inj split).1]
      exact .inr List.mem_cons_self

/-- Two leaders have the same signal, and neither stands before the other. -/
theorem leads_unique {setting other : Setting}
    (leads : Leads program feedback tried (some setting))
    (otherLeads : Leads program feedback tried (some other)) : setting = other := by
  have greatest := leads_greatest leads
  have otherGreatest := leads_greatest otherLeads
  obtain ⟨earlier, later, split, reached, less, _⟩ := leads
  obtain ⟨otherEarlier, otherLater, otherSplit, otherReached, otherLess, _⟩ := otherLeads
  have sameSignal : setting.signal = other.signal := by
    apply Int.le_antisymm
    · exact otherGreatest setting.phases (by simp [split]) _ reached
    · exact greatest other.phases (by simp [otherSplit]) _ otherReached
  have samePhases : setting.phases = other.phases := by
    rw [split] at otherSplit
    rcases List.append_eq_append_iff.mp otherSplit with ⟨between, before, rest⟩ |
      ⟨between, before, rest⟩
    · rcases head_or_among rest with same | ahead
      · exact same
      · have surpassed := otherLess setting.phases (by simp [before, ahead]) _ reached
        omega
    · rcases head_or_among rest with same | ahead
      · exact same.symm
      · have surpassed := less other.phases (by simp [before, ahead]) _ otherReached
        omega
  cases setting
  cases other
  cases sameSignal
  cases samePhases
  rfl

/-- The step of the search: one more ordering is tried. -/
theorem leads_offer (search : Search) (setting : Setting)
    (leads : Leads program feedback tried search.best)
    (reached : Gives program feedback setting.phases (.ok setting.signal)) :
    Leads program feedback (tried ++ [setting.phases]) (search.offer setting).best := by
  unfold Search.offer
  cases led : search.best with
  | none =>
      rw [led] at leads
      have first : tried = [] := leads
      subst first
      exact ⟨[], [], rfl, reached, by simp, by simp⟩
  | some best =>
      rw [led] at leads
      dsimp only
      split
      case isTrue surpassed =>
        refine ⟨tried, [], rfl, reached, ?_, by simp⟩
        intro phases member signal gives
        have bound := leads_greatest leads phases member signal gives
        omega
      case isFalse kept =>
        rw [led]
        obtain ⟨earlier, later, rfl, bestReached, less, lessOrEqual⟩ := leads
        refine ⟨earlier, later ++ [setting.phases], by simp, bestReached, less, ?_⟩
        intro phases member signal gives
        rcases List.mem_append.mp member with behind | last
        · exact lessOrEqual phases behind signal gives
        · rw [List.mem_singleton.mp last] at gives
          have same := Except.ok.inj (gives.unique reached)
          omega

end Leader

/-! ## Runs of the search -/

section Search

variable {fuel : Nat} {program : Program} {feedback : Bool}

theorem attempt_ok (search : Search) (phases : List Int) (signal : Int)
    (ran : (run fuel program phases 0 feedback).result = .ok signal) :
    ∃ events, search.attempt fuel program feedback phases =
      .ok ({ search with events }.offer ⟨signal, phases⟩) := by
  unfold Search.attempt
  dsimp only
  rw [ran]
  exact ⟨_, rfl⟩

theorem attempt_error (search : Search) (phases : List Int) (stop : Stop)
    (ran : (run fuel program phases 0 feedback).result = .error stop) :
    ∃ events, search.attempt fuel program feedback phases = .error (stop, events) := by
  unfold Search.attempt
  dsimp only
  rw [ran]
  exact ⟨_, rfl⟩

/-- As long as all chains return, the search goes on, and what it keeps leads. -/
theorem fold_leads (tried listed : List (List Int)) (search : Search)
    (leads : Leads program feedback tried search.best)
    (ran : ∀ phases ∈ listed, ∃ signal, (run fuel program phases 0 feedback).result = .ok signal) :
    ∃ final, listed.foldlM (Search.attempt fuel program feedback) search = .ok final ∧
      Leads program feedback (tried ++ listed) final.best := by
  induction listed generalizing tried search with
  | nil => exact ⟨search, rfl, by simpa using leads⟩
  | cons phases listed ih =>
      rw [List.forall_mem_cons] at ran
      obtain ⟨⟨signal, returned⟩, later⟩ := ran
      obtain ⟨events, attempted⟩ := attempt_ok search phases signal returned
      have reached : Gives program feedback phases (.ok signal) := ⟨fuel, returned⟩
      have next := leads_offer { search with events } ⟨signal, phases⟩ leads reached
      obtain ⟨final, folded, leading⟩ := ih _ _ next later
      refine ⟨final, ?_, ?_⟩
      · rw [List.foldlM_cons, attempted]
        exact folded
      · rw [List.append_assoc] at leading
        exact leading

/-- The first chain that does not return ends the search. -/
theorem fold_stops (earlier later : List (List Int)) (phases : List Int) (stop : Stop)
    (search : Search)
    (ran : ∀ phases ∈ earlier, ∃ signal, (run fuel program phases 0 feedback).result = .ok signal)
    (stopped : (run fuel program phases 0 feedback).result = .error stop) :
    ∃ events, (earlier ++ phases :: later).foldlM (Search.attempt fuel program feedback) search =
      .error (stop, events) := by
  induction earlier generalizing search with
  | nil =>
      obtain ⟨events, attempted⟩ := attempt_error search phases stop stopped
      refine ⟨events, ?_⟩
      rw [List.nil_append, List.foldlM_cons, attempted]
      rfl
  | cons first earlier ih =>
      rw [List.forall_mem_cons] at ran
      obtain ⟨⟨signal, returned⟩, rest⟩ := ran
      obtain ⟨_, attempted⟩ := attempt_ok search first signal returned
      obtain ⟨events, folded⟩ := ih _ rest
      refine ⟨events, ?_⟩
      rw [List.cons_append, List.foldlM_cons, attempted]
      exact folded

/-- What the search gives, apart from the history. -/
def found : Except (Stop × Array Event) Search → Except Stop (Option Setting)
  | .error (stop, _) => .error stop
  | .ok search => .ok search.best

theorem best_eq (phases : List Int) :
    (best fuel program phases feedback).1 =
      found ((orderings phases).foldlM (Search.attempt fuel program feedback) ⟨none, #[]⟩) := by
  unfold best
  rw [visit_orderings]
  cases (orderings phases).foldlM (Search.attempt fuel program feedback) ⟨none, #[]⟩ <;> rfl

end Search

/-- The search comes to this end for every fuel from some fuel on. -/
def Finds (program : Program) (feedback : Bool) (phases : List Int)
    (outcome : Except Error (Option Setting)) : Prop :=
  ∃ enough, ∀ fuel, enough ≤ fuel →
    (best fuel program phases feedback).1 = outcome.mapError .failed

section Outcome

variable {program : Program} {feedback : Bool} {phases : List Int}

theorem finds_leader
    (returns : ∀ ordering, ordering.Perm phases →
      ∃ signal, Gives program feedback ordering (.ok signal)) :
    ∃ setting, Finds program feedback phases (.ok (some setting)) ∧
      Leads program feedback (orderings phases) (some setting) := by
  have listed : ∀ ordering ∈ orderings phases,
      ∃ signal, Gives program feedback ordering (.ok signal) := by
    intro ordering member
    exact returns ordering ((mem_orderings_iff phases ordering).mp member)
  obtain ⟨enough, given⟩ := ends_together (orderings phases) fun ordering member =>
    let ⟨signal, gives⟩ := listed ordering member
    ⟨.ok signal, gives⟩
  have search : ∀ fuel, enough ≤ fuel → ∃ setting,
      (best fuel program phases feedback).1 = .ok (some setting) ∧
        Leads program feedback (orderings phases) (some setting) := by
    intro fuel bound
    have ran : ∀ ordering ∈ orderings phases,
        ∃ signal, (run fuel program ordering 0 feedback).result = .ok signal := by
      intro ordering member
      obtain ⟨signal, gives⟩ := listed ordering member
      exact ⟨signal, given fuel bound ordering member (.ok signal) gives⟩
    obtain ⟨final, folded, leads⟩ := fold_leads [] (orderings phases) ⟨none, #[]⟩ rfl ran
    rw [best_eq, folded]
    rw [List.nil_append] at leads
    cases led : final.best with
    | none =>
        rw [led] at leads
        have nothing : orderings phases = [] := leads
        have something := (mem_orderings_iff phases phases).mpr (.refl phases)
        rw [nothing] at something
        exact absurd something (by simp)
    | some setting =>
        rw [led] at leads
        exact ⟨setting, congrArg Except.ok led, leads⟩
  obtain ⟨setting, _, leads⟩ := search enough (Nat.le_refl _)
  refine ⟨setting, ⟨enough, ?_⟩, leads⟩
  intro fuel bound
  obtain ⟨other, found, otherLeads⟩ := search fuel bound
  rw [found, leads_unique leads otherLeads]
  rfl

/-- Among orderings whose chains all end, one that fails has a first one that does. -/
theorem first_failing (listed : List (List Int))
    (ends : ∀ ordering ∈ listed, ∃ outcome, Gives program feedback ordering outcome)
    (fails : ∃ ordering ∈ listed, ∃ error, Gives program feedback ordering (.error error)) :
    ∃ earlier ordering later error, listed = earlier ++ ordering :: later ∧
      (∀ other ∈ earlier, ∃ signal, Gives program feedback other (.ok signal)) ∧
      Gives program feedback ordering (.error error) := by
  induction listed with
  | nil =>
      obtain ⟨ordering, member, _⟩ := fails
      exact absurd member (by simp)
  | cons first listed ih =>
      rw [List.forall_mem_cons] at ends
      obtain ⟨⟨outcome, gives⟩, laterEnds⟩ := ends
      cases outcome with
      | error error => exact ⟨[], first, listed, error, rfl, by simp, gives⟩
      | ok signal =>
          have laterFails : ∃ ordering ∈ listed, ∃ error,
              Gives program feedback ordering (.error error) := by
            obtain ⟨ordering, member, error, fails⟩ := fails
            rcases List.mem_cons.mp member with rfl | later
            · cases gives.unique fails
            · exact ⟨ordering, later, error, fails⟩
          obtain ⟨earlier, ordering, later, error, rfl, returned, failed⟩ :=
            ih laterEnds laterFails
          exact ⟨first :: earlier, ordering, later, error, rfl,
            List.forall_mem_cons.mpr ⟨⟨signal, gives⟩, returned⟩, failed⟩

theorem finds_first_error (earlier later : List (List Int)) (ordering : List Int) (error : Error)
    (listed : orderings phases = earlier ++ ordering :: later)
    (returned : ∀ other ∈ earlier, ∃ signal, Gives program feedback other (.ok signal))
    (failed : Gives program feedback ordering (.error error)) :
    Finds program feedback phases (.error error) := by
  obtain ⟨enough, given⟩ := ends_together earlier fun other member =>
    let ⟨signal, gives⟩ := returned other member
    ⟨.ok signal, gives⟩
  obtain ⟨enoughFailing, givenFailing⟩ := failed.with_more
  refine ⟨max enough enoughFailing, ?_⟩
  intro fuel bound
  have ran : ∀ other ∈ earlier,
      ∃ signal, (run fuel program other 0 feedback).result = .ok signal := by
    intro other member
    obtain ⟨signal, gives⟩ := returned other member
    exact ⟨signal, given fuel (by omega) other member (.ok signal) gives⟩
  have stopped := givenFailing fuel (by omega)
  obtain ⟨events, folded⟩ :=
    fold_stops earlier later ordering (.failed error) ⟨none, #[]⟩ ran stopped
  rw [best_eq, listed, folded]
  rfl

end Outcome

/-- The orderings of the phases are all their permutations by position, in lexicographic order. If
the chains of all of them return, the search finds a setting: an ordering of the phases with the
signal its chain returns, which is the greatest that any ordering reaches, and it is the first
ordering to reach it. If some chain fails, and all of them end, the search fails with the error of
the first that does. -/
theorem best_setting_is_exact (program : Program) (feedback : Bool) (phases : List Int) :
    ByPosition phases (orderings phases) ∧
      ((∀ ordering, ordering.Perm phases →
          ∃ signal, Gives program feedback ordering (.ok signal)) →
        ∃ setting, Finds program feedback phases (.ok (some setting)) ∧
          setting.phases.Perm phases ∧
          Gives program feedback setting.phases (.ok setting.signal) ∧
          (∀ ordering signal, ordering.Perm phases →
            Gives program feedback ordering (.ok signal) → signal ≤ setting.signal) ∧
          ∃ earlier later, orderings phases = earlier ++ setting.phases :: later ∧
            ∀ ordering ∈ earlier, ¬ Gives program feedback ordering (.ok setting.signal)) ∧
      ((∀ ordering, ordering.Perm phases → ∃ outcome, Gives program feedback ordering outcome) →
        (∃ ordering error, ordering.Perm phases ∧ Gives program feedback ordering (.error error)) →
        ∃ earlier ordering later error, orderings phases = earlier ++ ordering :: later ∧
          (∀ other ∈ earlier, ∃ signal, Gives program feedback other (.ok signal)) ∧
          Gives program feedback ordering (.error error) ∧
          Finds program feedback phases (.error error)) := by
  refine ⟨orderings_by_position phases, ?_, ?_⟩
  · intro returns
    obtain ⟨setting, finds, leads⟩ := finds_leader returns
    have greatest := leads_greatest leads
    obtain ⟨earlier, later, listed, reached, less, _⟩ := leads
    have among : setting.phases ∈ orderings phases := by
      rw [listed]
      simp
    refine ⟨setting, finds, (mem_orderings_iff _ _).mp among, reached, ?_, earlier, later, listed,
      ?_⟩
    · intro ordering signal perm gives
      exact greatest ordering ((mem_orderings_iff _ _).mpr perm) signal gives
    · intro ordering before gives
      exact absurd (less ordering before _ gives) (Int.lt_irrefl _)
  · intro ends fails
    obtain ⟨ordering, error, perm, failing⟩ := fails
    obtain ⟨earlier, first, later, firstError, listed, returned, failed⟩ :=
      first_failing (orderings phases)
        (fun ordering member => ends ordering ((mem_orderings_iff _ _).mp member))
        ⟨ordering, (mem_orderings_iff _ _).mpr perm, error, failing⟩
    exact ⟨earlier, first, later, firstError, listed, returned, failed,
      finds_first_error earlier later first firstError listed returned failed⟩

/-- Doubles the signal and adds the phase. -/
def doubling : Program :=
  { words := [3, 15, 3, 16, 102, 2, 16, 16, 1, 15, 16, 16, 4, 16, 99, 0, 0] }

-- Two orderings by position are `[5, 1, 1]`, and the greatest signal is reached by no other.
example : (orderings [1, 5, 1]).idxsOf [5, 1, 1] = [2, 3] ∧
    (best 20 doubling [1, 5, 1] false).1 = .ok (some ⟨23, [5, 1, 1]⟩) := by decide +kernel

/-- Of three phases the greatest comes first, as it is doubled twice. A phase of which the double is
no word fails the chain unless it comes last, so that the second ordering ends the search. -/
theorem doubling_search_is_exact :
    Finds doubling false [1, 5, 1] (.ok (some ⟨23, [5, 1, 1]⟩)) ∧
      Finds doubling false [1, 4611686018427387904]
        (.error (.trap ⟨4, .overflow .multiplication 2 4611686018427387904⟩)) := by
  constructor
  · have returned : ∀ ordering ∈ orderings [1, 5, 1], Gives doubling false ordering
        (.ok (ordering.foldl (fun signal phase => 2 * signal + phase) 0)) := by
      have ran : ∀ ordering ∈ orderings [1, 5, 1], (run 20 doubling ordering 0 false).result =
          .ok (ordering.foldl (fun signal phase => 2 * signal + phase) 0) := by decide +kernel
      intro ordering member
      exact ⟨20, ran ordering member⟩
    have only : ∀ ordering ∈ orderings [(1 : Int), 5, 1],
        23 ≤ ordering.foldl (fun signal phase => 2 * signal + phase) 0 →
          ordering = [5, 1, 1] := by decide +kernel
    obtain ⟨⟨signal, phases⟩, finds, perm, reached, greatest, _⟩ :=
      (best_setting_is_exact doubling false [1, 5, 1]).2.1 fun ordering perm =>
        ⟨_, returned ordering ((mem_orderings_iff _ _).mpr perm)⟩
    have member := (mem_orderings_iff _ _).mpr perm
    have same := Except.ok.inj (reached.unique (returned phases member))
    have most := greatest [5, 1, 1] 23 (by decide) (returned [5, 1, 1] (by decide))
    have first := only phases member (same ▸ most)
    subst first
    have reachedMost : signal = 23 := same
    subst reachedMost
    exact finds
  · have returned : Gives doubling false [1, 4611686018427387904] (.ok 4611686018427387906) :=
      ⟨20, by decide +kernel⟩
    have failed : Gives doubling false [4611686018427387904, 1]
        (.error (.trap ⟨4, .overflow .multiplication 2 4611686018427387904⟩)) :=
      ⟨20, by decide +kernel⟩
    have both : ∀ ordering : List Int, ordering.Perm [1, 4611686018427387904] →
        ordering = [1, 4611686018427387904] ∨ ordering = [4611686018427387904, 1] := by
      intro ordering perm
      have member := (mem_orderings_iff _ _).mpr perm
      simpa [orderings, arrangements, picks] using member
    obtain ⟨earlier, ordering, later, error, listed, _, fails, finds⟩ :=
      (best_setting_is_exact doubling false [1, 4611686018427387904]).2.2
        (fun ordering perm => (both ordering perm).elim
          (fun same => ⟨_, same ▸ returned⟩) (fun same => ⟨_, same ▸ failed⟩))
        ⟨_, _, by decide, failed⟩
    have member : ordering ∈ orderings [1, 4611686018427387904] := by
      rw [listed]
      simp
    rcases both ordering ((mem_orderings_iff _ _).mp member) with rfl | rfl
    · cases fails.unique returned
    · cases fails.unique failed
      exact finds

end Intcode.Chain
