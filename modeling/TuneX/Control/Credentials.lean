import TuneX.Control.Plan
import TuneX.Framework.Run

namespace TuneX.Control

open Framework

variable {now : Nat}

/-- A row of `node_relay_credentials`. -/
structure CredentialRow where
  fingerprint : Fingerprint
  validUntil : Nat
  retireAfter : Option Nat
  revoked : Bool
  deriving DecidableEq,Repr

namespace CredentialRow

def active (now : Nat) (r : CredentialRow) : Bool :=
  !r.revoked && now < r.validUntil && r.retireAfter.all (now<·)

/-- A row that is not retiring yet is given the end of the overlap. -/
def retire (overlap : Nat) (r : CredentialRow) : CredentialRow :=
  if r.revoked || r.retireAfter.isSome then r
  else { r with retireAfter := some (min r.validUntil overlap) }

/-- What `relayCredentialFacts` selects from. -/
def credential (r : CredentialRow) : RelayCredential :=
  ⟨r.fingerprint,min r.validUntil (r.retireAfter.getD r.validUntil),r.retireAfter.isSome⟩

theorem active_credential (r : CredentialRow) :
    r.active now=(!r.revoked && decide (now < r.credential.validUntil)) := by
  unfold active credential
  cases r.retireAfter with
  | none => simp
  | some after => simp only [Option.all_some,Option.getD_some,Nat.lt_min,Bool.decide_and,Bool.and_assoc]

theorem active_retire {overlap : Nat} {r : CredentialRow} (h : (r.retire overlap).active now) :
    r.active now := by
  unfold retire at h
  split_ifs at h with hkeep
  · exact h
  · simp only [Bool.or_eq_true,not_or,Option.isSome_iff_ne_none,ne_eq,not_not] at hkeep
    simp only [active,Bool.and_eq_true] at h ⊢
    simp only [hkeep.2,Option.all_none,and_true]
    exact h.1

theorem active_earlier {r : CredentialRow} {later : Nat} (hle : now≤later)
    (h : r.active later) : r.active now := by
  rw [active_credential,Bool.and_eq_true,decide_eq_true_eq] at h ⊢
  exact ⟨h.1,hle.trans_lt h.2⟩

end CredentialRow

structure Credentials where
  clock : Nat
  rows : List CredentialRow

namespace Credentials

def empty : Credentials := ⟨0,[]⟩

/-- The issuance of a Relay credential: at most two overlap. -/
def relayCredential (c : Credentials) (now : Nat) (fingerprint : Fingerprint)
    (signedUntil machineUntil lifetime overlap : Nat) : Except Error Credentials := do
  reject (2 ≤ c.rows.countP (·.active now)) .resourceLimit
  let until_ := min signedUntil (min machineUntil (now+lifetime))
  reject (until_≤now) .authorizationDenied
  reject (fingerprint∈c.rows.map (·.fingerprint)) .resourceConflict
  pure ⟨now,c.rows.map (·.retire (min until_ (now+overlap)))++[⟨fingerprint,until_,none,false⟩]⟩

/-- `markRevoked` and recovery revoke all of them. -/
def revoke (c : Credentials) (now : Nat) : Credentials :=
  ⟨now,c.rows.map fun r => { r with revoked := true }⟩

inductive Event
  | relayCredential (fingerprint : Fingerprint) (signedUntil machineUntil lifetime overlap : Nat)
  | revoke

def apply (c : Credentials) (now : Nat) : Event→Except Error Credentials
  | .relayCredential fingerprint signedUntil machineUntil lifetime overlap =>
    c.relayCredential now fingerprint signedUntil machineUntil lifetime overlap
  | .revoke => .ok (c.revoke now)

def Step (c : Credentials) (e : Nat×Event) (c' : Credentials) : Prop :=
  c.clock≤e.1 ∧ c.apply e.1 e.2=.ok c'

/-- What the other modules see of a table. -/
def view (c : Credentials) : List RelayCredential :=
  (c.rows.filter fun r => !r.revoked).map CredentialRow.credential

/-- A list of credentials that some history of issuance and revocation leads to. -/
def Held (now : Nat) (l : List RelayCredential) : Prop :=
  ∃events c, Run Step empty events c ∧ c.clock≤now ∧ l=c.view

structure Bounded (c : Credentials) : Prop where
  fingerprints : (c.rows.map (·.fingerprint)).Nodup
  two : ∀now, c.clock≤now → c.rows.countP (·.active now)≤2

theorem Bounded.step {c c' : Credentials} {e : Nat×Event} (hc : c.Bounded) (h : Step c e c') :
    c'.Bounded := by
  obtain ⟨hclock,happly⟩ := h
  cases hev : e.2 with
  | revoke =>
    rw [hev] at happly
    cases happly
    refine ⟨?_,?_⟩
    · have hmap : (c.rows.map fun r => { r with revoked := true }).map (·.fingerprint)=
          c.rows.map (·.fingerprint) := by simp
      exact hmap ▸ hc.fingerprints
    · intro now hnow
      have hnone : (c.rows.map fun r => { r with revoked := true }).countP (·.active now)=0 := by
        rw [List.countP_eq_zero]
        simp [CredentialRow.active]
      simp [revoke,hnone]
  | relayCredential fingerprint signedUntil machineUntil lifetime overlap =>
    rw [hev] at happly
    simp only [apply,relayCredential,do_ok] at happly
    obtain ⟨hfew,-,hnew,rfl⟩ := happly
    refine ⟨?_,?_⟩
    · have hretire : ∀r : CredentialRow, ∀o, (r.retire o).fingerprint=r.fingerprint := by
        intro r o
        unfold CredentialRow.retire
        split_ifs <;> rfl
      simp only [List.map_append,List.map_map,List.map_cons,List.map_nil]
      rw [List.nodup_append]
      have hmap : List.map ((·.fingerprint)∘fun r : CredentialRow => r.retire
          (min (min signedUntil (min machineUntil (e.1+lifetime))) (e.1+overlap))) c.rows=
          c.rows.map (·.fingerprint) := by
        apply List.map_congr_left
        intro r _
        exact hretire r _
      rw [hmap]
      refine ⟨hc.fingerprints,by simp,?_⟩
      intro a ha b hb hab
      rw [List.mem_singleton] at hb
      exact hnew (hb ▸ hab ▸ ha)
    · intro now hnow
      have hold : (c.rows.map (·.retire (min (min signedUntil (min machineUntil (e.1+lifetime)))
          (e.1+overlap)))).countP (·.active now) ≤ c.rows.countP (·.active e.1) := by
        rw [List.countP_map]
        apply List.countP_mono_left
        intro r _ hr
        exact CredentialRow.active_earlier hnow (CredentialRow.active_retire hr)
      have hone : [(⟨fingerprint,min signedUntil (min machineUntil (e.1+lifetime)),none,false⟩ :
          CredentialRow)].countP (·.active now)≤1 := List.countP_le_length
      rw [List.countP_append]
      omega

theorem run_bounded {events : List (Nat×Event)} {c : Credentials}
    (h : Run Step empty events c) : c.Bounded :=
  h.invariant Bounded (fun _ _ _ hs hc => hc.step hs) ⟨by simp [empty],by simp [empty]⟩

/-- Every issue gives all earlier credentials an end, so at most one has none. -/
theorem run_current {events : List (Nat×Event)} {c : Credentials} (h : Run Step empty events c) :
    c.rows.countP (fun r => !r.revoked && !r.retireAfter.isSome)≤1 := by
  cases h with
  | refl => simp [empty]
  | @snoc l b _ e _ hstep =>
    have happly := hstep.2
    cases hev : e.2 with
    | revoke =>
      rw [hev] at happly
      cases happly
      simp [revoke,Function.comp_def]
    | relayCredential fingerprint signedUntil machineUntil lifetime overlap =>
      rw [hev] at happly
      simp only [apply,relayCredential,do_ok] at happly
      obtain ⟨-,-,-,rfl⟩ := happly
      rw [List.countP_append,List.countP_map,List.countP_eq_zero.mpr]
      · simp
      · intro r _
        simp only [Function.comp,CredentialRow.retire]
        split_ifs with hkeep
        · rw [← Bool.not_or,hkeep]
          simp
        · simp

end Credentials

theorem Credentials.Held.spec {l : List RelayCredential} (h : Credentials.Held now l) :
    (l.map (·.fingerprint)).Nodup ∧ (l.filter fun c => now < c.validUntil).length≤2 := by
  obtain ⟨events,c,hrun,hclock,rfl⟩ := h
  have hbounded := Credentials.run_bounded hrun
  refine ⟨?_,?_⟩
  · unfold Credentials.view
    rw [List.map_map]
    have hsub : ((c.rows.filter fun r => !r.revoked).map ((·.fingerprint)∘CredentialRow.credential)).Sublist
        (c.rows.map (·.fingerprint)) := List.filter_sublist.map _
    exact hbounded.fingerprints.sublist hsub
  · have htwo := hbounded.two now hclock
    unfold Credentials.view
    rw [← List.countP_eq_length_filter,List.countP_map,List.countP_filter]
    refine le_trans (List.countP_mono_left ?_) htwo
    intro r _ hr
    rw [CredentialRow.active_credential]
    simp only [Function.comp,bool_ok] at hr ⊢
    exact ⟨hr.2,hr.1⟩

end TuneX.Control
