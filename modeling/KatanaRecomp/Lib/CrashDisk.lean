import KatanaRecomp.Lib.StateExcept

/-! # Files under a process that may stop

A disk holds whole files under names. Its steps are atomic: each one happens,
or fails and throws, or the process stops before it. Which of the three is
decided by a list of outcomes, one for each step; when the list is used up
every step happens. A stopped process runs no handler. -/
namespace KatanaRecomp.Lib.CrashDisk

inductive Outcome
  | happens | fails | stops

/-- How a computation on the disk ends when it does not return. -/
inductive Halt (ε : Type)
  | thrown (error : ε)
  | stopped

variable {ν β ε α : Type}

abbrev Files (ν β : Type) := ν → Option β

structure Disk (ν β : Type) where
  files : Files ν β
  outcomes : List Outcome

abbrev DiskM (ν β ε : Type) := EStateM (Halt ε) (Disk ν β)

/-- One atomic step with its effect, or the exception of its failure. -/
def attempt (error : ε) (effect : Files ν β → Files ν β) : DiskM ν β ε Unit := fun disk =>
  let rest : Disk ν β := { disk with outcomes := disk.outcomes.tail }
  match disk.outcomes.head? with
  | some .stops => .error .stopped rest
  | some .fails => .error (.thrown error) rest
  | _ => .ok () { rest with files := effect disk.files }

def raise (error : ε) : DiskM ν β ε α := throw (.thrown error)

/-- `try ... catch (...)`: a stopped process does not come here. -/
def onThrow (x : DiskM ν β ε α) (handler : ε → DiskM ν β ε α) : DiskM ν β ε α := fun disk =>
  match x disk with
  | .error (.thrown error) rest => handler error rest
  | result => result

/-- Whether a call came back. -/
def returned : EStateM.Result (Halt ε) (Disk ν β) α → Bool
  | .ok _ _ => true
  | .error _ _ => false

/-- The exception a call ended with. -/
def thrownError : EStateM.Result (Halt ε) (Disk ν β) α → Option ε
  | .error (.thrown error) _ => some error
  | _ => none

theorem eq_of_thrownError {result : EStateM.Result (Halt ε) (Disk ν β) α} {error : ε}
    (h : thrownError result = some error) : ∃ disk, result = .error (.thrown error) disk := by
  unfold thrownError at h
  split at h
  · cases h
    exact ⟨_, rfl⟩
  · cases h

/-- The calls that report their error in an `error_code` nobody looks at. -/
def ignoring (x : DiskM ν β ε Unit) : DiskM ν β ε Unit := onThrow x fun _ => pure ()

section
variable [DecidableEq ν]

def writeFile (error : ε) (name : ν) (content : β) : DiskM ν β ε Unit :=
  attempt error fun files => Function.update files name (some content)

/-- Removing a file that is not there is no error. -/
def removeFile (error : ε) (name : ν) : DiskM ν β ε Unit :=
  attempt error fun files => Function.update files name none

/-- The target is replaced; a missing source is an error. -/
def renameFile (error : ε) (old new : ν) : DiskM ν β ε Unit := do
  let disk ← get
  if (disk.files old).isNone then raise error
  else attempt error fun files => Function.update (Function.update files new (files old)) old none

end

/-- The process may also stop here. -/
def checkpoint : DiskM ν β ε Unit := fun disk =>
  let rest : Disk ν β := { disk with outcomes := disk.outcomes.tail }
  match disk.outcomes.head? with
  | some .stops => .error .stopped rest
  | _ => .ok () rest

/-! ## Rules

The conditions are about the files: what the outcomes will be is not for a proof to know. -/

/-- Started on these files, the computation returns with `post` or halts with `fail`. -/
def Leaves (x : DiskM ν β ε α) (files : Files ν β) (post : α → Files ν β → Prop)
    (fail : Halt ε → Files ν β → Prop) : Prop :=
  ∀ outcomes, Ensures x ⟨files, outcomes⟩ (fun a disk => post a disk.files)
    (fun halt disk => fail halt disk.files)

namespace Leaves
variable {files : Files ν β} {post post' : α → Files ν β → Prop}
  {fail fail' : Halt ε → Files ν β → Prop}

theorem mono {x : DiskM ν β ε α} (h : Leaves x files post fail)
    (hpost : ∀ a t, post a t → post' a t) (hfail : ∀ e t, fail e t → fail' e t) :
    Leaves x files post' fail' :=
  fun outcomes => (h outcomes).mono (fun a t => hpost a t.files) fun e t => hfail e t.files

theorem bind {γ : Type} {x : DiskM ν β ε α} {f : α → DiskM ν β ε γ} {post' : γ → Files ν β → Prop}
    (h : Leaves x files (fun a t => Leaves (f a) t post' fail) fail) :
    Leaves (x >>= f) files post' fail := by
  intro outcomes
  refine .bind ((h outcomes).mono ?_ fun _ _ h => h)
  intro a t ht
  exact ht t.outcomes

theorem pure {a : α} (h : post a files) : Leaves (Pure.pure a : DiskM ν β ε α) files post fail :=
  fun _ => .pure h

theorem raise {error : ε} (h : fail (.thrown error) files) :
    Leaves (CrashDisk.raise error : DiskM ν β ε α) files post fail := fun _ => .throw h

/-- A look at the files. -/
theorem get {f : Disk ν β → DiskM ν β ε α}
    (h : ∀ outcomes, Leaves (f ⟨files, outcomes⟩) files post fail) :
    Leaves (MonadState.get >>= f) files post fail :=
  fun outcomes => .bind (.get (h outcomes outcomes))

theorem ite {c : Prop} [Decidable c] {x y : DiskM ν β ε α} (hx : c → Leaves x files post fail)
    (hy : ¬ c → Leaves y files post fail) : Leaves (if c then x else y) files post fail := by
  split
  · exact hx ‹_›
  · exact hy ‹_›

theorem attempt {error : ε} {effect : Files ν β → Files ν β} {post : Unit → Files ν β → Prop}
    (h : post () (effect files)) (hthrown : fail (.thrown error) files)
    (hstopped : fail .stopped files) : Leaves (CrashDisk.attempt error effect) files post fail := by
  intro outcomes
  unfold Ensures CrashDisk.attempt
  rcases outcomes with _ | ⟨outcome, rest⟩
  · exact h
  · cases outcome with
    | happens => exact h
    | fails => exact hthrown
    | stops => exact hstopped

theorem checkpoint {post : Unit → Files ν β → Prop} (h : post () files)
    (hstopped : fail .stopped files) :
    Leaves (CrashDisk.checkpoint : DiskM ν β ε Unit) files post fail := by
  intro outcomes
  unfold Ensures CrashDisk.checkpoint
  rcases outcomes with _ | ⟨outcome, rest⟩
  · exact h
  · cases outcome with
    | happens => exact h
    | fails => exact h
    | stops => exact hstopped

theorem onThrow {x : DiskM ν β ε α} {handler : ε → DiskM ν β ε α}
    (h : Leaves x files post fun halt t => match halt with
      | .thrown error => Leaves (handler error) t post fail
      | .stopped => fail .stopped t) :
    Leaves (CrashDisk.onThrow x handler) files post fail := by
  intro outcomes
  have hx := h outcomes
  unfold Ensures at hx ⊢
  unfold CrashDisk.onThrow
  cases hresult : x ⟨files, outcomes⟩ with
  | ok a t =>
    rw [hresult] at hx
    exact hx
  | error halt t =>
    rw [hresult] at hx
    cases halt with
    | thrown error => exact hx t.outcomes
    | stopped => exact hx

theorem ignoring {x : DiskM ν β ε Unit} {post : Unit → Files ν β → Prop}
    (h : Leaves x files post fun halt t => match halt with
      | .thrown _ => post () t
      | .stopped => fail .stopped t) :
    Leaves (CrashDisk.ignoring x) files post fail := by
  refine .onThrow (h.mono (fun _ _ h => h) ?_)
  intro halt t ht
  cases halt with
  | thrown error => exact .pure ht
  | stopped => exact ht

section
variable [DecidableEq ν] {post : Unit → Files ν β → Prop}

theorem writeFile {error : ε} {name : ν} {content : β}
    (h : post () (Function.update files name (some content)))
    (hthrown : fail (.thrown error) files) (hstopped : fail .stopped files) :
    Leaves (CrashDisk.writeFile error name content) files post fail := .attempt h hthrown hstopped

theorem removeFile {error : ε} {name : ν} (h : post () (Function.update files name none))
    (hthrown : fail (.thrown error) files) (hstopped : fail .stopped files) :
    Leaves (CrashDisk.removeFile error name) files post fail := .attempt h hthrown hstopped

theorem renameFile {error : ε} {old new : ν}
    (h : post () (Function.update (Function.update files new (files old)) old none))
    (hthrown : fail (.thrown error) files) (hstopped : fail .stopped files) :
    Leaves (CrashDisk.renameFile error old new) files post fail := by
  unfold CrashDisk.renameFile
  refine .get fun _ => .ite (fun _ => .raise hthrown) fun _ => ?_
  exact .attempt h hthrown hstopped

end
end Leaves
end KatanaRecomp.Lib.CrashDisk
