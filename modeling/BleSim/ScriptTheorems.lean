import BleSim.LuaApi
import BleSim.ServerTheorems

/-!
# Scripts

What a call comes to is said by the parameters of the function (`ApiFunction.parameters`): arguments
that do not match them raise an error and change nothing, and any others make the call one of the
steps of `System`. So whatever a script passes, it is answered as by the server of `Server`.
-/

namespace BleSim

open Outcomes WriteOnce Refinement Decimal

/-! ## What functions take and return -/

/-- What a function takes. -/
inductive Parameter where
  | string
  | object (typeName : CStr)
  | any

/-- The type of the userdata that stands for an object. An advertisement has none of its own. -/
def Obj.typeName : Obj → Option CStr
  | device _ => some luaUserdataDevice
  | service _ => some luaUserdataService
  | characteristic _ => some luaUserdataCharacteristic
  | descriptor _ => some luaUserdataDescriptor
  | advertisement _ => none

/-- The error for an argument that is not what the function takes. -/
def Parameter.error? (index : ℕ) : Parameter → ScriptValue → Option ApiError
  | string, .value (.string _) => none
  | string, _ => some (.argument index [])
  | object typeName, .userdata o =>
    if o.typeName = some typeName then none else some (.userdata index typeName)
  | object typeName, .value _ => some (.userdata index typeName)
  | any, _ => none

namespace ApiFunction

/-- The parameters of a function. The data type of `setValue` is looked at with the value. -/
def parameters : ApiFunction → List Parameter
  | createDevice | createService | createCharacteristic | createDescriptor => [.string]
  | registerDevice | freeDevice => [.object luaUserdataDevice]
  | addService => [.object luaUserdataDevice, .object luaUserdataService]
  | powered | discoverable => [.object luaUserdataDevice, .any]
  | addCharacteristic => [.object luaUserdataService, .object luaUserdataCharacteristic]
  | addDescriptor => [.object luaUserdataCharacteristic, .object luaUserdataDescriptor]
  | notifying => [.object luaUserdataCharacteristic, .any]
  | setValue => [.object luaUserdataCharacteristic, .any, .any]
  | freeService => [.object luaUserdataService]
  | freeCharacteristic => [.object luaUserdataCharacteristic]
  | freeDescriptor => [.object luaUserdataDescriptor]

/-- Whether the function is the `__gc` function of a metatable. These do not count their
arguments. -/
def IsFree (f : ApiFunction) : Prop :=
  f ∈ [freeDevice, freeService, freeCharacteristic, freeDescriptor]

instance (f : ApiFunction) : Decidable f.IsFree := inferInstanceAs (Decidable (_ ∈ _))

/-- The error for arguments that do not match the parameters: they are counted first, then the first
one that does not match is reported. -/
def error (f : ApiFunction) (args : List ScriptValue) : ApiError :=
  if ¬ f.IsFree ∧ args.length ≠ f.parameters.length then
    .message ("Expected ".toList ++ decimal f.parameters.length ++ " arguments to function".toList)
  else
    ((f.parameters.zipIdx 1).findSome? fun p => p.1.error? p.2 (argument args p.2)).getD
      (.message [])

/-- The step a call makes with arguments that match. -/
def op? (env : ApiEnv) : ApiFunction → List ScriptValue → Option Op
  | createDevice, [.value (.string name)] => some (.createDevice (cString name))
  | createService, [.value (.string uuid)] => some (.createService (cString uuid))
  | createCharacteristic, [.value (.string uuid)] => some (.createCharacteristic (cString uuid))
  | createDescriptor, [.value (.string uuid)] => some (.createDescriptor (cString uuid))
  | registerDevice, [.userdata (.device d)] => some (.registerDevice env.register d)
  | addService, [.userdata (.device d), .userdata (.service s)] =>
    some (.add .service env.accepts d s)
  | powered, [.userdata (.device d), value] =>
    some (.setPowered env.property d value.toBoolean)
  | discoverable, [.userdata (.device d), value] =>
    some (.setDiscoverable env.property d value.toBoolean)
  | addCharacteristic, [.userdata (.service s), .userdata (.characteristic c)] =>
    some (.add .characteristic env.accepts s c)
  | addDescriptor, [.userdata (.characteristic c), .userdata (.descriptor k)] =>
    some (.add .descriptor env.accepts c k)
  | notifying, [.userdata (.characteristic c), value] => some (.setNotifying c value.toBoolean)
  | setValue, [.userdata (.characteristic c), v, t] => some (.setValue c v.toLua t.toLua)
  | freeDevice, .userdata (.device d) :: _ => some (.fini (.device d))
  | freeService, .userdata (.service s) :: _ => some (.fini (.service s))
  | freeCharacteristic, .userdata (.characteristic c) :: _ => some (.fini (.characteristic c))
  | freeDescriptor, .userdata (.descriptor k) :: _ => some (.fini (.descriptor k))
  | _, _ => none

end ApiFunction

/-- What a call returns, by what the step it makes shows. -/
def Reply.results (args : List ScriptValue) : Reply → Except ApiError (List ScriptValue)
  | created o => .ok [.userdata o]
  | bool b => .ok [.value (.boolean b)]
  | lua (.ret b) => .ok [.value (.boolean b)]
  | lua .raise => .error (Api.setValueError (argument args 2).toLua (argument args 3).toLua)
  | handled _ _ | none => .ok []

/-! ## What a call comes to -/

/-- A function that returns a boolean shows what the step shows. -/
theorem returnsBoolean_eq (x : Outcome (Bool × State)) (args : List ScriptValue) :
    returnsBoolean x =
      ((x >>= fun r => .ok (Reply.bool r.1, r.2)) >>= fun r => .ok (r.1.results args, r.2)) := by
  cases x <;> rfl

/-- A function that returns nothing shows that the step is over. -/
theorem returnsNothing_eq (x : Outcome State) (args : List ScriptValue) :
    returnsNothing x =
      ((x >>= fun σ => .ok (Reply.none, σ)) >>= fun r => .ok (r.1.results args, r.2)) := by
  cases x <;> rfl

/-- `setValue` shows what the step shows, and an error that the step raises is one of the call. -/
theorem luaiCharacteristicSetValue_eq (c : ℕ) (v t : ScriptValue) (σ : State) :
    Api.luaiCharacteristicSetValue [.userdata (.characteristic c), v, t] σ =
      exec (.setValue c v.toLua t.toLua) σ >>= fun r =>
        .ok (r.1.results [.userdata (.characteristic c), v, t], r.2) := by
  -- the checks have passed
  change luaiCharacteristicSetValue c v.toLua t.toLua σ >>= _ = _
  rw [exec]
  cases luaiCharacteristicSetValue c v.toLua t.toLua σ with
  | error e => rfl
  | ok r =>
    obtain ⟨exit, σ'⟩ := r
    cases exit <;> rfl

/-- What a call comes to: an error before anything happens, or a step. -/
inductive ApiFunction.Comes (env : ApiEnv) (f : ApiFunction) (args : List ScriptValue) : Prop where
  | error (hop : f.op? env args = none)
    (hcall : ∀ σ, f.call env args σ = .ok (.error (f.error args), σ))
  | step (op : Op) (hop : f.op? env args = some op)
    (hcall : ∀ σ, f.call env args σ = exec op σ >>= fun r => .ok (r.1.results args, r.2))

namespace ApiFunction

/-- Every call is one or the other, whatever the arguments are. -/
theorem comes (env : ApiEnv) (f : ApiFunction) (args : List ScriptValue) : f.Comes env args := by
  cases f with
  | createDevice | createService | createCharacteristic | createDescriptor =>
    rcases args with _ | ⟨_ | v, _ | ⟨_, _⟩⟩
    case cons.value.nil =>
      cases v with
      | string name => exact .step _ rfl fun _ => rfl
      | _ => exact .error rfl fun _ => rfl
    all_goals exact .error (by simp [op?]) fun _ => rfl
  | registerDevice =>
    rcases args with _ | ⟨o | _, _ | ⟨_, _⟩⟩
    case cons.userdata.nil =>
      cases o with
      | device d => exact .step _ rfl fun _ => returnsBoolean_eq _ _
      | _ => exact .error rfl fun _ => rfl
    all_goals exact .error (by simp [op?]) fun _ => rfl
  | addService | addCharacteristic | addDescriptor =>
    rcases args with _ | ⟨o | _, _ | ⟨o' | _, _ | ⟨_, _⟩⟩⟩
    case cons.userdata.cons.userdata.nil =>
      -- the second argument is looked at only if the first one matches
      cases o <;> cases o' <;>
        first
          | exact .step _ rfl fun _ => returnsBoolean_eq _ _
          | exact .error rfl fun _ => rfl
    case cons.userdata.cons.value.nil => cases o <;> exact .error rfl fun _ => rfl
    all_goals exact .error (by simp [op?]) fun _ => rfl
  | powered | discoverable =>
    rcases args with _ | ⟨o | _, _ | ⟨_, _ | ⟨_, _⟩⟩⟩
    case cons.userdata.cons.nil =>
      cases o with
      | device d => exact .step _ rfl fun _ => returnsBoolean_eq _ _
      | _ => exact .error rfl fun _ => rfl
    all_goals exact .error (by simp [op?]) fun _ => rfl
  | notifying =>
    rcases args with _ | ⟨o | _, _ | ⟨_, _ | ⟨_, _⟩⟩⟩
    case cons.userdata.cons.nil =>
      cases o with
      | characteristic c => exact .step _ rfl fun _ => returnsNothing_eq _ _
      | _ => exact .error rfl fun _ => rfl
    all_goals exact .error (by simp [op?]) fun _ => rfl
  | setValue =>
    rcases args with _ | ⟨o | _, _ | ⟨v, _ | ⟨t, _ | ⟨_, _⟩⟩⟩⟩
    case cons.userdata.cons.cons.nil =>
      cases o with
      | characteristic c => exact .step _ rfl fun σ => luaiCharacteristicSetValue_eq c v t σ
      | _ => exact .error rfl fun _ => rfl
    all_goals exact .error (by simp [op?]) fun _ => rfl
  | freeDevice | freeService | freeCharacteristic | freeDescriptor =>
    rcases args with _ | ⟨o | _, rest⟩
    case cons.userdata =>
      cases o <;>
        first
          | exact .step _ rfl fun _ => returnsNothing_eq _ _
          | exact .error rfl fun _ => rfl
    all_goals exact .error (by simp [op?]) fun _ => rfl

end ApiFunction

/-! ## Scripts -/

/-- A step of the simulator as a script sees it: it calls a function, or something else happens. -/
inductive ScriptStep where
  | call (env : ApiEnv) (f : ApiFunction) (args : List ScriptValue)
  | other (op : Op)

/-- What a step shows. -/
inductive ScriptReply where
  | call (result : Except ApiError (List ScriptValue))
  | other (reply : Reply)

/-- Take one step. -/
def scriptExec (step : ScriptStep) (σ : State) : Outcome (ScriptReply × State) :=
  match step with
  | .call env f args => f.call env args σ >>= fun r => .ok (.call r.1, r.2)
  | .other op => exec op σ >>= fun r => .ok (.other r.1, r.2)

/-- The functions of the API in front of the steps of `System`. -/
def scriptFrontEnd : FrontEnd ScriptStep Op Reply ScriptReply where
  read
    | .call env f args =>
      match f.op? env args with
      | some op => .ok op
      | none => .error (.call (.error (f.error args)))
    | .other op => .ok op
  tell
    | .call _ _ args, r => .call (r.results args)
    | .other _, r => .other r

theorem scriptExec_eq : scriptExec = scriptFrontEnd.step exec := by
  funext step σ
  cases step with
  | call env f args =>
    cases f.comes env args with
    | error hop hcall => simp [scriptExec, FrontEnd.step, scriptFrontEnd, hop, hcall]
    | step op hop hcall =>
      simp only [scriptExec, FrontEnd.step, scriptFrontEnd, hop, hcall]
      cases exec op σ <;> rfl
  | other op => rfl

/-- The server, behind the same functions. -/
def scriptServer : Machine ScriptStep Server ScriptReply Message :=
  scriptFrontEnd.machine Server.step

/-- What the step of `System` behind a step has to satisfy, if there is one. -/
def ScriptStep.Satisfies (P : Op → Prop) (step : ScriptStep) : Prop :=
  ∀ op, scriptFrontEnd.read step = .ok op → P op

/-- Whatever scripts pass, the simulator refines the server. -/
theorem scriptExec_refines : Refines scriptExec (fun σ => σ.bus.sent) scriptServer
    (fun step g => step.Satisfies fun op => op.Fits g) Represents := by
  rw [scriptExec_eq]
  exact FrontEnd.refines exec_refines

/-- A step of a script creates at most one object. -/
theorem Server.Room.script {g : Server} {n : ℕ} (h : g.Room (n + 1)) {step : ScriptStep}
    {t : Taken ScriptReply Message Server} (ht : scriptServer step g = some t) : t.next.Room n := by
  unfold scriptServer FrontEnd.machine at ht
  split at ht
  · cases ht
    exact h.same rfl fun _ => rfl
  · obtain ⟨u, hu, rfl⟩ := Option.map_eq_some_iff.mp ht
    exact h.step hu

/-- A library and an adapter that do what they are asked. -/
def ApiEnv.willing : ApiEnv :=
  ⟨refusesRegistered, ⟨fun _ _ => true, some 1, ⟨true, true, true⟩⟩, ⟨true, true⟩⟩

end BleSim
