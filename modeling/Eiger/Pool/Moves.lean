import Eiger.Pool.Resources

/-!
# The moves of the tasks

`Task.perform` is written in the order of the source. `Move` is the same steps as the sessions see
them: every step that inserts, claims, marks, touches, removes or shuts down a session, or that a
task takes while it owns one, by a name of its own; the steps in between, which no session
notices, fall under a few constructors with a `Op.quiet` operation. `perform_move` is the
inversion: what a task can do. The invariants about sessions are case analyses on a `Move`.
-/

namespace Eiger

/-- An operation that no session notices. -/
def Op.quiet : Op → Bool
  | .insert .. => false
  | .countCreated => false
  | .claim _ => false
  | .markInUse _ => false
  | .touch _ => false
  | .remove _ => false
  | .setKilling _ => false
  | .setKillReason .. => false
  | .countRecycle .. => false
  | .takeBrowser .. => false
  | .setDead _ => false
  | .returnTrue _ => false
  | _ => true

/-- Whether a `create_session` call has its session in the map. -/
def CreatePc.hasInserted : CreatePc → Bool
  | .inserted _ => true
  | _ => false

/-- The steps of the tasks, as the sessions see them. -/
inductive Move : Task → Op → Task → Prop
  | create {caller overrides pc op pc'} (hq : op.quiet = true) (h : pc.hasInserted = false)
      (h' : pc'.hasInserted = false) :
    Move (.creating caller overrides pc) op (.creating caller overrides pc')
  | insert {caller overrides options b id} :
    Move (.creating caller overrides (.recorded options b))
      (.insert id options.stealth.enabled b) (.creating caller overrides (.inserted id))
  | count {caller overrides id} :
    Move (.creating caller overrides (.inserted id)) .countCreated (Task.created caller id)
  | respond {id pc op pc'} (hq : op.quiet = true) : Move (.responding id pc) op (.responding id pc')
  | responded {id pc op} (hq : op.quiet = true) : Move (.responding id pc) op .done
  | lookup {id} : Move (.connecting id .lookup) (.cloneEntry id) (.connecting id .found)
  | notFound {id} : Move (.connecting id .lookup) (.notFound id) .done
  | claim {id} : Move (.connecting id .found) (.claim id) (.connecting id .claimed)
  | reject {id} : Move (.connecting id .found) (.notConnectable id) (.connecting id .rejected)
  | rejected {id} : Move (.connecting id .rejected) (.release [.entry id]) .done
  | connected {id} : Move (.connecting id .claimed) (.touch id) (.upgrading .connected id)
  | upgraded {origin id} : Move (.upgrading origin id) .nothing (.marking .proxy origin id)
  | refused {origin id} : Move (.upgrading origin id) (.release [.entry id]) .done
  | mark {owner origin id} : Move (.marking owner origin id) (.markInUse id) (.touching owner id)
  | touch {owner id} : Move (.touching owner id) (.touch id) (.driving owner id)
  | disconnect {id} : Move (.driving .proxy id) .nothing
      (.terminating .proxy id "cdp websocket disconnected" .removing)
  | complete {id} : Move (.driving .rest id) (.release [.entry id])
      (.terminating .rest id "rest endpoint completed" .removing)
  | remove {caller id reason} : Move (.terminating caller id reason .removing) (.remove id)
      (.terminating caller id reason .killing)
  | missed {caller id reason} : Move (.terminating caller id reason .removing) (.notFound id)
      (.terminating caller id reason .leaving)
  | kill {caller id reason} : Move (.terminating caller id reason .killing) (.setKilling id)
      (.terminating caller id reason .reasoning)
  | giveReason {caller id reason} : Move (.terminating caller id reason .reasoning)
      (.setKillReason id reason) (.terminating caller id reason .counting)
  | countRecycle {caller id reason} : Move (.terminating caller id reason .counting)
      (.countRecycle id reason) (.terminating caller id reason .taking)
  | take {caller id reason b} : Move (.terminating caller id reason .taking) (.takeBrowser id b)
      (.terminating caller id reason (.shutting b .start))
  | noBrowser {caller id reason} : Move (.terminating caller id reason .taking) (.noBrowser id)
      (.terminating caller id reason .dying)
  | shut {caller id reason b pc op pc'} (hq : op.quiet = true)
      (step : ∃ choice, ShutdownStep b.child pc choice op pc') :
    Move (.terminating caller id reason (.shutting b pc)) op
      (.terminating caller id reason (.shutting b pc'))
  | dropShut {caller id reason b kind} :
    Move (.terminating caller id reason (.shutting b (.shut kind))) (.release [.browser b])
      (.terminating caller id reason (.reporting kind))
  | report {caller id reason kind op} (hq : op.quiet = true) :
    Move (.terminating caller id reason (.reporting kind)) op
      (.terminating caller id reason .dying)
  | die {caller id reason} : Move (.terminating caller id reason .dying) (.setDead id)
      (.terminating caller id reason .ended)
  | dropEnded {caller id reason} : Move (.terminating caller id reason .ended)
      (.release [.entry id]) (.terminating caller id reason .finishing)
  | finish {caller id reason} : Move (.terminating caller id reason .finishing) (.returnTrue id)
      (.terminating caller id reason .leaving)
  | leave {caller id reason} : Move (.terminating caller id reason .leaving)
      (.release (Task.callerFrame id caller)) (Task.resume caller)
  | pass {pc op pc'} (hq : op.quiet = true) : Move (.passing pc) op (.passing pc')
  | condemn {pc op rest id reason} (hq : op.quiet = true) :
    Move (.passing pc) op (.terminating (.pass rest) id reason .removing)
  | passed {pc} : Move (.passing pc) .nothing .done
  | read {held op held'} (hq : op.quiet = true) : Move (.reading held) op (.reading held')
  | readAll : Move (.reading []) .nothing .done

section

variable {pool : SessionPool} {choice : Choice} {op : Op} {t t' : Task}

/-- The moves of a `create_session` call. -/
theorem CreateStep.move {caller : Caller} {overrides : SessionOverrides} {pc : CreatePc}
    (step : CreateStep pool caller overrides pc choice op t') :
    Move (.creating caller overrides pc) op t' := by
  cases step with
  | insert => exact .insert
  | count => exact .count
  | _ => exact .create rfl rfl rfl

/-- The moves of a `connect_session` call. -/
theorem ConnectStep.move {id : Uuid} {pc : ConnectPc} (step : ConnectStep id pc choice op t') :
    Move (.connecting id pc) op t' := by
  cases step <;> constructor

/-- The moves of the handler of `POST /sessions`. -/
theorem RespondStep.move {id : Uuid} {pc : RespondPc} (step : RespondStep id pc choice op t') :
    Move (.responding id pc) op t' := by
  cases step with
  | answer => exact .responded rfl
  | lookup | notFound | inform => exact .respond rfl

/-- The steps of `shutdown` are quiet. -/
theorem ShutdownStep.quiet {c : ChildId} {pc pc' : ShutdownPc}
    (step : ShutdownStep c pc choice op pc') : op.quiet = true := by
  cases step <;> rfl

/-- The moves of a `terminate_session` call. -/
theorem TerminateStep.move {caller : Terminator} {id : Uuid} {reason : String} {pc : TermPc}
    (step : TerminateStep caller id reason pc choice op t') :
    Move (.terminating caller id reason pc) op t' := by
  cases step with
  | shut hs => exact .shut hs.quiet ⟨_, hs⟩
  | dropShut => exact .dropShut
  | countKilled | report => exact .report rfl
  | _ => constructor

/-- A pass that looked at an entry kills it or goes on. -/
theorem Task.decide_move {pc pc' : PassPc} {id : Uuid} {rest : List Uuid} (hq : op.quiet = true)
    (reason : Option String) : Move (.passing pc) op (decide id rest pc' reason) := by
  cases reason with
  | none => exact .pass hq
  | some reason => exact .condemn hq

/-- The moves of a maintenance pass. -/
theorem PassStep.move {options : PoolOptions} {pc : PassPc}
    (step : PassStep options pc choice op t') : Move (.passing pc) op t' := by
  cases step with
  | visited => exact .passed
  | age | idle | sample | probe => exact Task.decide_move rfl _
  | _ => exact .pass rfl

/-- The moves of a task. -/
theorem TaskStep.move (step : TaskStep pool t choice op t') : Move t op t' := by
  cases step with
  | create h => exact h.move
  | respond h => exact h.move
  | connect h => exact h.move
  | terminate h => exact h.move
  | pass h => exact h.move
  | read | drop => exact .read rfl
  | _ => constructor

/-- **What a task can do.** -/
theorem Task.perform_move (h : t.perform pool choice = some (op, t')) : Move t op t' :=
  (perform_step h).move

end

end Eiger
