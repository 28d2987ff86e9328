import NansOS.Windows.Ownership

/-! Owns whole sessions with the window manager, with `malloc` and the keyboard around
it: in every run whose calls name listed windows and spare the dragged one, no freed
memory is used, nothing is freed twice or lost, and every terminal holds what was
typed into it. -/

namespace NansOS.Windows

open NansOS.Foundation
open NansOS.Kernel

/-- A manager with its books. -/
structure Session where
  manager : Manager
  accounts : Accounts

namespace Session

/-- Before the first call, with nothing allocated. -/
def start (before : Manager) : Session where
  manager := before.windowInit
  accounts :=
    { live := []
      typed := fun _ => [] }

/-- One call, and what it does with memory. -/
def step (session : Session) (next : Call) : Session where
  manager := session.manager.call next
  accounts := session.accounts.after (session.manager.acts next)

/-- What a call does with memory. -/
def memory (session : Session) (next : Call) : List (MemoryEvent UInt64) :=
  (session.manager.acts next).map Act.memory

/-- The caller names listed windows and does not destroy a window that is dragged, and
`malloc` returns addresses that are not in use. -/
structure Careful (session : Session) (next : Call) : Prop where
  uses : session.manager.UsesListed next
  spares : session.manager.SparesDragged next
  fresh : Fresh session.accounts.live (session.memory next)

/-- The invariant of careful sessions. -/
structure Sound (session : Session) : Prop where
  bounded : session.manager.Bounded
  held : session.manager.Held
  balanced : session.manager.Balanced session.accounts

theorem sound_start (before : Manager) : (start before).Sound where
  bounded := before.windowInit_bounded
  held := before.windowInit_held
  balanced :=
    { owned := List.Perm.refl _
      distinct := List.nodup_nil
      texts := fun _ listed => absurd listed List.not_mem_nil }

theorem Sound.step {session : Session} (sound : session.Sound) {next : Call}
    (careful : session.Careful next) :
    Clean session.accounts.live (session.memory next) ∧ (session.step next).Sound := by
  obtain ⟨clean, balanced⟩ :=
    Manager.call_preserves sound.bounded sound.held careful.uses session.accounts sound.balanced
      careful.fresh
  exact ⟨clean, Manager.call_bounded sound.bounded next,
    sound.held.call sound.bounded careful.spares,
    balanced⟩

/-- Careful sessions stay sound. -/
theorem sound_throughout (before : Manager) {calls : List Call}
    (careful : Along step Careful (start before) calls) :
    Throughout step Sound (start before) calls :=
  throughout_iff.mpr ⟨sound_start before, along_of_invariant
    (fun _ _ sound careful => (sound.step careful).2)
    (fun _ _ sound careful => (sound.step careful).2) (sound_start before) careful⟩

end Session

/-- In a careful session every address that a call accesses or frees is allocated at
that moment; and what is allocated is at any time the listed windows with their
terminal buffers, each once, so that nothing is lost, and `window_update` may paint. -/
theorem session_memory (before : Manager) {calls : List Call}
    (careful : Along Session.step Session.Careful (.start before) calls) :
    Along Session.step
        (fun session next => Clean session.accounts.live (session.memory next)) (.start before)
        calls ∧
      Throughout Session.step
        (fun session => session.accounts.live.Nodup ∧
          session.accounts.live.Perm session.manager.owned ∧
          Clean session.accounts.live (session.manager.updateActs.map Act.memory))
        (.start before) calls := by
  constructor
  · exact along_of_invariant (fun _ _ sound careful => (sound.step careful).2)
      (fun _ _ sound careful => (sound.step careful).1) (Session.sound_start before) careful
  · have sound := Session.sound_throughout before careful
    rw [throughout_iff_leading] at sound ⊢
    intro first leading
    have balanced := (sound first leading).balanced
    exact ⟨balanced.distinct, balanced.owned, Manager.updateActs_clean balanced⟩

/-- A terminal that is typed into, moved behind a file browser and destroyed. -/
def openAndClose : List Call :=
  [.createTerminal 4096 8192, .handleKey 65, .createFileBrowser 12288, .move 12288 200 100,
    .destroy 4096]

theorem openAndClose_careful :
    Along Session.step Session.Careful (.start bootManager) openAndClose :=
  ⟨⟨trivial, fun _ noBuffer => absurd noBuffer (by decide), by decide +kernel⟩,
    ⟨trivial, trivial, by decide +kernel⟩, ⟨trivial, trivial, by decide +kernel⟩,
    ⟨Or.inr (by decide +kernel), trivial, by decide +kernel⟩,
    ⟨trivial, Or.inr (by decide +kernel), by decide +kernel⟩, trivial⟩

theorem openAndClose_memory :
    Along Session.step
        (fun session next => Clean session.accounts.live (session.memory next))
        (.start bootManager) openAndClose ∧
      Throughout Session.step
        (fun session => session.accounts.live.Nodup ∧
          session.accounts.live.Perm session.manager.owned ∧
          Clean session.accounts.live (session.manager.updateActs.map Act.memory))
        (.start bootManager) openAndClose :=
  session_memory bootManager openAndClose_careful

/-- In a careful session every terminal that is listed holds the first 1023 keys that
were delivered to it since it was created, whatever was moved, raised, closed and
created meanwhile, with a NUL behind them. -/
theorem session_texts (before : Manager) {calls : List Call}
    (careful : Along Session.step Session.Careful (.start before) calls) :
    Throughout Session.step
      (fun session => ∀ window ∈ session.manager.list, session.manager.content window ≠ 0 →
        (session.manager.buffers (session.manager.content window)).Shows
          (session.accounts.typed (session.manager.content window)))
      (.start before) calls := by
  have sound := Session.sound_throughout before careful
  rw [throughout_iff_leading] at sound ⊢
  exact fun first leading => (sound first leading).balanced.texts

theorem openAndClose_texts :
    Throughout Session.step
      (fun session => ∀ window ∈ session.manager.list, session.manager.content window ≠ 0 →
        (session.manager.buffers (session.manager.content window)).Shows
          (session.accounts.typed (session.manager.content window)))
      (.start bootManager) openAndClose :=
  session_texts bootManager openAndClose_careful

end NansOS.Windows
