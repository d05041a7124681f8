import Mathlib.Data.List.Basic
import Mathlib.Data.List.Nodup
import Mathlib.Data.List.Perm.Basic

/-!
# `Lib.Tally` — counting the votes of a ballot

Two loops over votes. `tally` counts accounts: a vote of an account that is counted is passed over, any other is
judged, and a vote that counts adds its account. `veto` refuses at the first vote that counts. Judging may fail, and a
failure ends the loop.

A vote whose judgement fails does no harm where the loop passes it over or has ended before it; `Spoiled` says where it
does. A ballot that is not spoiled is decided by the votes in it that count, in whatever order and however often they
stand there (`mem_of_tally`, `veto_ok_iff`); one that is spoiled ends with the failure (`tally_error_iff`,
`veto_of_spoiled`).
-/

namespace Tally

variable {V K ε : Type}

/-- The accounts that votes count for, after those counted already. -/
def tally [DecidableEq K] (account : V → K) (counts : V → Except ε Bool) : List V → List K → Except ε (List K)
  | [], seen => .ok seen
  | v :: vs, seen =>
      if account v ∈ seen then tally account counts vs seen
      else
        match counts v with
        | .error e   => .error e
        | .ok true   => tally account counts vs (account v :: seen)
        | .ok false  => tally account counts vs seen

/-- Refuse at the first vote that counts. -/
def veto (refusal : V → ε) (counts : V → Except ε Bool) : List V → Except ε Unit
  | [] => .ok ()
  | v :: vs =>
      match counts v with
      | .error e  => .error e
      | .ok true  => .error (refusal v)
      | .ok false => veto refusal counts vs

variable {account : V → K} {counts : V → Except ε Bool} {refusal : V → ε}

/-! ## Spoiled ballots -/

/-- A vote that cannot be judged, of an account that is not counted before it. -/
def Spoiled (account : V → K) (counts : V → Except ε Bool) (votes : List V) (seen : List K) : Prop :=
  ∃ before v after, votes = before ++ v :: after ∧ (∃ e, counts v = .error e) ∧ account v ∉ seen ∧
    ∀ u ∈ before, account u = account v → counts u ≠ .ok true

theorem not_spoiled_nil {seen : List K} : ¬ Spoiled account counts [] seen := by
  rintro ⟨before, v, after, h, -⟩
  exact absurd h.symm (List.append_ne_nil_of_right_ne_nil _ (List.cons_ne_nil _ _))

/-- The first vote, or one behind it. -/
theorem spoiled_cons {v : V} {vs : List V} {seen : List K} :
    Spoiled account counts (v :: vs) seen ↔
      ((∃ e, counts v = .error e) ∧ account v ∉ seen) ∨
      ∃ before w after, vs = before ++ w :: after ∧ (∃ e, counts w = .error e) ∧ account w ∉ seen ∧
        ∀ u ∈ v :: before, account u = account w → counts u ≠ .ok true := by
  constructor
  · rintro ⟨before, w, after, hsplit, hfail, hnew, hbefore⟩
    cases before with
    | nil =>
        obtain ⟨rfl, rfl⟩ := List.cons.inj hsplit
        exact Or.inl ⟨hfail, hnew⟩
    | cons u before =>
        obtain ⟨rfl, rfl⟩ := List.cons.inj hsplit
        exact Or.inr ⟨before, w, after, rfl, hfail, hnew, hbefore⟩
  · rintro (⟨hfail, hnew⟩ | ⟨before, w, after, rfl, hfail, hnew, hbefore⟩)
    · exact ⟨[], v, vs, rfl, hfail, hnew, fun u hu => absurd hu List.not_mem_nil⟩
    · exact ⟨v :: before, w, after, rfl, hfail, hnew, hbefore⟩

/-- A first vote that is passed over, or does not count. -/
theorem spoiled_cons_of_idle {v : V} {vs : List V} {seen : List K}
    (h : account v ∈ seen ∨ counts v = .ok false) :
    Spoiled account counts (v :: vs) seen ↔ Spoiled account counts vs seen := by
  rw [spoiled_cons]
  constructor
  · rintro (⟨⟨e, hfail⟩, hnew⟩ | ⟨before, w, after, hsplit, hfail, hnew, hbefore⟩)
    · rcases h with hin | hfalse
      · exact absurd hin hnew
      · rw [hfail] at hfalse
        cases hfalse
    · exact ⟨before, w, after, hsplit, hfail, hnew, fun u hu => hbefore u (List.mem_cons_of_mem v hu)⟩
  · rintro ⟨before, w, after, hsplit, hfail, hnew, hbefore⟩
    refine Or.inr ⟨before, w, after, hsplit, hfail, hnew, fun u hu hsame => ?_⟩
    rcases List.mem_cons.mp hu with rfl | hu
    · rcases h with hin | hfalse
      · exact absurd (hsame ▸ hin) hnew
      · rw [hfalse]
        exact fun htrue => nomatch htrue
    · exact hbefore u hu hsame

/-- A first vote that counts. -/
theorem spoiled_cons_of_counts {v : V} {vs : List V} {seen : List K} (h : counts v = .ok true) :
    Spoiled account counts (v :: vs) seen ↔ Spoiled account counts vs (account v :: seen) := by
  rw [spoiled_cons]
  constructor
  · rintro (⟨⟨e, hfail⟩, -⟩ | ⟨before, w, after, hsplit, hfail, hnew, hbefore⟩)
    · rw [hfail] at h
      cases h
    · refine ⟨before, w, after, hsplit, hfail, fun hin => ?_, fun u hu => hbefore u (List.mem_cons_of_mem v hu)⟩
      rcases List.mem_cons.mp hin with hsame | hin
      · exact hbefore v List.mem_cons_self hsame.symm h
      · exact hnew hin
  · rintro ⟨before, w, after, hsplit, hfail, hnew, hbefore⟩
    refine Or.inr ⟨before, w, after, hsplit, hfail, fun hin => hnew (List.mem_cons_of_mem _ hin), fun u hu hsame => ?_⟩
    rcases List.mem_cons.mp hu with rfl | hu
    · exact absurd (hsame ▸ List.mem_cons_self) hnew
    · exact hbefore u hu hsame

/-! ## Accounts that are counted -/

variable [DecidableEq K]

/-- Counting fails exactly on a spoiled ballot. -/
theorem tally_error_iff {vs : List V} {seen : List K} :
    (∃ e, tally account counts vs seen = .error e) ↔ Spoiled account counts vs seen := by
  induction vs generalizing seen with
  | nil => exact iff_of_false (fun ⟨e, h⟩ => nomatch h) not_spoiled_nil
  | cons v vs ih =>
      by_cases hin : account v ∈ seen
      · rw [tally, if_pos hin, ih, spoiled_cons_of_idle (Or.inl hin)]
      · rw [tally, if_neg hin]
        split
        · next e he => exact iff_of_true ⟨e, rfl⟩ (spoiled_cons.mpr (Or.inl ⟨⟨e, he⟩, hin⟩))
        · next htrue => rw [ih, spoiled_cons_of_counts htrue]
        · next hfalse => rw [ih, spoiled_cons_of_idle (Or.inr hfalse)]

/-- A count that fails fails with what a vote failed with. -/
theorem error_of_tally {vs : List V} {seen : List K} {e : ε} (h : tally account counts vs seen = .error e) :
    ∃ v ∈ vs, counts v = .error e := by
  induction vs generalizing seen with
  | nil => cases h
  | cons v vs ih =>
      have hrest : ∀ {seen' : List K}, tally account counts vs seen' = .error e →
          ∃ w ∈ v :: vs, counts w = .error e := by
        intro seen' h'
        obtain ⟨w, hw, he⟩ := ih h'
        exact ⟨w, List.mem_cons_of_mem v hw, he⟩
      rw [tally] at h
      split at h
      · exact hrest h
      · split at h
        · next he => exact ⟨v, List.mem_cons_self, Except.error.inj h ▸ he⟩
        · exact hrest h
        · exact hrest h

/-- What a count that ends has counted: those before, and the accounts of the votes that count. -/
theorem mem_of_tally {vs : List V} {seen counted : List K} (h : tally account counts vs seen = .ok counted) (k : K) :
    k ∈ counted ↔ k ∈ seen ∨ ∃ v ∈ vs, account v = k ∧ counts v = .ok true := by
  induction vs generalizing seen with
  | nil =>
      obtain rfl := Except.ok.inj h
      simp
  | cons v vs ih =>
      rw [tally] at h
      simp only [List.exists_mem_cons_iff]
      split at h
      · next hin =>
          rw [ih h]
          constructor
          · exact fun hk => hk.imp id Or.inr
          · rintro (hk | ⟨rfl, -⟩ | hk)
            · exact Or.inl hk
            · exact Or.inl hin
            · exact Or.inr hk
      · split at h
        · cases h
        · next htrue =>
            rw [ih h, List.mem_cons, or_assoc]
            constructor
            · rintro (rfl | hk | hk)
              · exact Or.inr (Or.inl ⟨rfl, htrue⟩)
              · exact Or.inl hk
              · exact Or.inr (Or.inr hk)
            · rintro (hk | ⟨rfl, -⟩ | hk)
              · exact Or.inr (Or.inl hk)
              · exact Or.inl rfl
              · exact Or.inr (Or.inr hk)
        · next hfalse =>
            rw [ih h, hfalse]
            simp

/-- No account is counted twice. -/
theorem nodup_of_tally {vs : List V} {seen counted : List K} (h : tally account counts vs seen = .ok counted)
    (hseen : seen.Nodup) : counted.Nodup := by
  induction vs generalizing seen with
  | nil => exact Except.ok.inj h ▸ hseen
  | cons v vs ih =>
      rw [tally] at h
      split at h
      · exact ih h hseen
      · next hnew =>
          split at h
          · cases h
          · exact ih h (List.nodup_cons.mpr ⟨hnew, hseen⟩)
          · exact ih h hseen

/-! ## Vetoes -/

omit [DecidableEq K]

/-- Nothing is refused exactly where no vote counts and none fails. -/
theorem veto_ok_iff {vs : List V} : veto refusal counts vs = .ok () ↔ ∀ v ∈ vs, counts v = .ok false := by
  induction vs with
  | nil => exact iff_of_true rfl fun v hv => absurd hv List.not_mem_nil
  | cons v vs ih =>
      rw [List.forall_mem_cons, veto]
      split
      · next e he => exact iff_of_false (fun h => nomatch h) fun h => by rw [he] at h; cases h.1
      · next htrue => exact iff_of_false (fun h => nomatch h) fun h => by rw [htrue] at h; cases h.1
      · next hfalse => rw [ih, hfalse]; exact (and_iff_right rfl).symm

/-- A spoiled ballot ends with the failure. -/
theorem veto_of_spoiled {vs : List V} (h : Spoiled (fun _ => ()) counts vs []) :
    ∃ v ∈ vs, ∃ e, counts v = .error e ∧ veto refusal counts vs = .error e := by
  induction vs with
  | nil => exact absurd h not_spoiled_nil
  | cons v vs ih =>
      rw [veto]
      split
      · next e he => exact ⟨v, List.mem_cons_self, e, he, rfl⟩
      · next htrue =>
          obtain ⟨-, w, -, -, -, hnew, -⟩ := (spoiled_cons_of_counts htrue).mp h
          exact absurd List.mem_cons_self hnew
      · next hfalse =>
          obtain ⟨w, hw, e, he, hres⟩ := ih ((spoiled_cons_of_idle (Or.inr hfalse)).mp h)
          exact ⟨w, List.mem_cons_of_mem v hw, e, he, hres⟩

/-- Any other is refused for a vote that counts, or not at all. -/
theorem veto_of_not_spoiled {vs : List V} (h : ¬ Spoiled (fun _ => ()) counts vs []) :
    veto refusal counts vs = .ok () ∨ ∃ v ∈ vs, counts v = .ok true ∧ veto refusal counts vs = .error (refusal v) := by
  induction vs with
  | nil => exact Or.inl rfl
  | cons v vs ih =>
      rw [veto]
      split
      · next e he => exact absurd (spoiled_cons.mpr (Or.inl ⟨⟨e, he⟩, List.not_mem_nil⟩)) h
      · next htrue => exact Or.inr ⟨v, List.mem_cons_self, htrue, rfl⟩
      · next hfalse =>
          rcases ih (fun hs => h ((spoiled_cons_of_idle (Or.inr hfalse)).mpr hs)) with hok | ⟨w, hw, htrue, hres⟩
          · exact Or.inl hok
          · exact Or.inr ⟨w, List.mem_cons_of_mem v hw, htrue, hres⟩

/-! ## Votes with their places -/

theorem veto_zipIdx (refusal : V → ε) (vs : List V) (k : Nat) :
    veto (fun v : V × Nat => refusal v.1) (fun v => counts v.1) (vs.zipIdx k) = veto refusal counts vs := by
  induction vs generalizing k with
  | nil => rfl
  | cons v vs ih => rw [List.zipIdx_cons, veto, veto, ih]

theorem tally_zipIdx [DecidableEq K] (vs : List V) (k : Nat) (seen : List K) :
    tally (fun v : V × Nat => account v.1) (fun v => counts v.1) (vs.zipIdx k) seen = tally account counts vs seen := by
  induction vs generalizing k seen with
  | nil => rfl
  | cons v vs ih => rw [List.zipIdx_cons, tally, tally, ih, ih]

end Tally
