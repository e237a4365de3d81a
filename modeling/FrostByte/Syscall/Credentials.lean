import Mathlib.Data.Int.Notation
import Mathlib.Tactic.Common

/-!
# The ids of a process

`sys_setuid`, `sys_seteuid`, `sys_setgid` and `sys_setegid` on the ids of the current process. With
an effective user id other than zero the real ids stay, and the effective ones go back and forth
between two values at most.

## Main definitions

* `Creds`, `Call` — the ids of a process, and the calls that change them.
* `Within` — what is left of two sets of ids.

## Main results

* `ids_irrevocable` — privileges that were given up cannot be had again.
-/

namespace FrostByte.Credentials

/-- The four ids of `process_t`. -/
structure Creds where
  uid : UInt32
  euid : UInt32
  gid : UInt32
  egid : UInt32
  deriving DecidableEq

variable {c d e : Creds}

/-- `sys_setuid`: the value returned and the new ids. -/
def sysSetuid (uid : UInt32) (cur : Creds) : ℤ × Creds :=
  if cur.euid = 0 then (0, { cur with uid := uid, euid := uid })
  else if uid = cur.uid ∨ uid = cur.euid then (0, { cur with euid := uid })
  else (-1, cur)

/-- `sys_setgid`, which asks for the effective user id. -/
def sysSetgid (gid : UInt32) (cur : Creds) : ℤ × Creds :=
  if cur.euid = 0 then (0, { cur with gid := gid, egid := gid })
  else if gid = cur.gid ∨ gid = cur.egid then (0, { cur with egid := gid })
  else (-1, cur)

/-- `sys_seteuid`. -/
def sysSeteuid (euid : UInt32) (cur : Creds) : ℤ × Creds :=
  if cur.euid = 0 ∨ euid = cur.uid ∨ euid = cur.euid then (0, { cur with euid := euid })
  else (-1, cur)

/-- `sys_setegid`. -/
def sysSetegid (egid : UInt32) (cur : Creds) : ℤ × Creds :=
  if cur.euid = 0 ∨ egid = cur.gid ∨ egid = cur.egid then (0, { cur with egid := egid })
  else (-1, cur)

/-- The four calls. -/
inductive Call
  | setuid (uid : UInt32)
  | setgid (gid : UInt32)
  | seteuid (euid : UInt32)
  | setegid (egid : UInt32)

/-- The ids after a call, whatever it returns. -/
def Call.apply : Call → Creds → Creds
  | .setuid uid, c => (sysSetuid uid c).2
  | .setgid gid, c => (sysSetgid gid c).2
  | .seteuid euid, c => (sysSeteuid euid c).2
  | .setegid egid, c => (sysSetegid egid c).2

/-- The calls one after the other. -/
def run (calls : List Call) (c : Creds) : Creds := calls.foldl (fun c call => call.apply c) c

/-- What the ids `d` may become once the user ids are not zero. -/
structure Within (d e : Creds) : Prop where
  uid : e.uid = d.uid
  euid : e.euid = d.uid ∨ e.euid = d.euid
  gid : e.gid = d.gid
  egid : e.egid = d.gid ∨ e.egid = d.egid

lemma Within.refl (d : Creds) : Within d d := ⟨rfl, .inr rfl, rfl, .inr rfl⟩

lemma Within.call (h : Within d e) (huid : d.uid ≠ 0) (heuid : d.euid ≠ 0) (call : Call) :
    Within d (call.apply e) := by
  have hroot : e.euid ≠ 0 := by
    rcases h.euid with h | h
    · rwa [h]
    · rwa [h]
  cases call with
  | setuid uid =>
    simp only [Call.apply, sysSetuid, if_neg hroot]
    split_ifs with hid
    · exact ⟨h.uid, by grind [h.uid, h.euid], h.gid, h.egid⟩
    · exact h
  | setgid gid =>
    simp only [Call.apply, sysSetgid, if_neg hroot]
    split_ifs with hid
    · exact ⟨h.uid, h.euid, h.gid, by grind [h.gid, h.egid]⟩
    · exact h
  | seteuid euid =>
    simp only [Call.apply, sysSeteuid, hroot, false_or]
    split_ifs with hid
    · exact ⟨h.uid, by grind [h.uid, h.euid], h.gid, h.egid⟩
    · exact h
  | setegid egid =>
    simp only [Call.apply, sysSetegid, hroot, false_or]
    split_ifs with hid
    · exact ⟨h.uid, h.euid, h.gid, by grind [h.gid, h.egid]⟩
    · exact h

lemma Within.run (h : Within d e) (huid : d.uid ≠ 0) (heuid : d.euid ≠ 0) (calls : List Call) :
    Within d (run calls e) := by
  induction calls generalizing e with
  | nil => exact h
  | cons call calls ih => exact ih (h.call huid heuid call)

/-- **Privileges cannot be had again**: with user ids other than zero, each id stays one of the
two. -/
theorem ids_irrevocable (c : Creds) (before after : List Call)
    (huid : (run before c).uid ≠ 0) (heuid : (run before c).euid ≠ 0) : let d := run before c
    let e := run (before ++ after) c
    (e.uid = d.uid ∨ e.uid = d.euid) ∧ (e.euid = d.uid ∨ e.euid = d.euid) ∧
      (e.gid = d.gid ∨ e.gid = d.egid) ∧ (e.egid = d.gid ∨ e.egid = d.egid) := by
  have hrun : run (before ++ after) c = run after (run before c) := List.foldl_append
  have h := (Within.refl (run before c)).run huid heuid after
  intro d e
  rw [← hrun] at h
  exact ⟨.inl h.uid, h.euid, .inl h.gid, h.egid⟩

/-- Root becomes user 7 and asks for user 0. -/
theorem ids_irrevocable_user : (run [.setgid 5, .setuid 7] ⟨0, 0, 0, 0⟩).uid = 7 ∧
    (run [.setgid 5, .setuid 7, .setuid 0] ⟨0, 0, 0, 0⟩).euid = 7 :=
  ⟨by decide, (ids_irrevocable ⟨0, 0, 0, 0⟩ [.setgid 5, .setuid 7] [.setuid 0] (by decide)
    (by decide)).2.1.elim id id⟩

end FrostByte.Credentials
