import Outlayer.Lib.Checked
import Outlayer.Lib.Collections

/-!
# `Lib.Balances` — account balances in a map

A ledger keeps one number per account and reads an absent account as zero. `holdings` is the sum over all
accounts; each operation comes with the equation that says what it does to that sum.
-/

namespace Balances
open Checked Collections

variable {K : Type} [DecidableEq K]

/-- The balance of `k`, zero when there is no entry. -/
def balance (m : LookupMap K Nat) (k : K) : Nat := (m.lookup k).getD 0

/-- The sum of all balances. -/
def holdings (m : LookupMap K Nat) : Nat := LookupMap.total (fun _ n => n) m

/-- Add `n` to the balance of `k` at width `w`. -/
def credit (w : Nat) (m : LookupMap K Nat) (k : K) (n : Nat) : Res (LookupMap K Nat) := do
  let sum ← add w (balance m k) n
  pure (m.insert k sum)

private theorem elim_lookup (m : LookupMap K Nat) (k : K) :
    (m.lookup k).elim 0 (fun n => n) = balance m k := by
  unfold balance
  cases m.lookup k <;> rfl

/-- Overwriting a balance: the new one comes in, the old one goes out. -/
theorem holdings_insert (m : LookupMap K Nat) (k : K) (v : Nat) :
    holdings (m.insert k v) + balance m k = holdings m + v := by
  have h := LookupMap.total_insert (fun _ n => n) k v m
  rwa [elim_lookup] at h

/-- Dropping an account takes its balance out of the sum. -/
theorem holdings_erase (m : LookupMap K Nat) (k : K) :
    holdings (m.erase k) + balance m k = holdings m := by
  have h := LookupMap.total_erase (fun _ n => n) k m
  rwa [elim_lookup] at h

/-- A credit goes through exactly when the new balance fits. -/
@[simp] theorem credit_eq_ok {w n : Nat} {m m' : LookupMap K Nat} {k : K} :
    credit w m k n = .ok m' ↔ balance m k + n < 2 ^ w ∧ m' = m.insert k (balance m k + n) := by
  simp only [credit, bind_eq_ok, add_eq_ok, pure_eq_ok]
  constructor
  · rintro ⟨_, ⟨hlt, rfl⟩, rfl⟩
    exact ⟨hlt, rfl⟩
  · rintro ⟨hlt, rfl⟩
    exact ⟨_, ⟨hlt, rfl⟩, rfl⟩

/-- **A credit raises the sum by the amount credited.** -/
theorem holdings_credit {w n : Nat} {m m' : LookupMap K Nat} {k : K} (h : credit w m k n = .ok m') :
    holdings m' = holdings m + n := by
  obtain ⟨-, rfl⟩ := credit_eq_ok.mp h
  have := holdings_insert m k (balance m k + n)
  omega

end Balances
