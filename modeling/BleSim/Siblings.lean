import BleSim.DBusUtils
import BleSim.Lib.Chain

/-!
# Looking up and adding a child

`device_get_service`, `service_get_characteristic` and `characteristic_get_descriptor` are one
loop over three kinds of list, and the functions that add a child differ only in their first
check. `getChild` and `addChild` are what they share; the functions themselves are in the
modules named after their source files.
-/

namespace BleSim

open Outcomes WriteOnce Intrusive

/-- The loop of the three lookup functions: `strcmp` the key with each sibling's UUID. -/
def getChild (kind : Kind) (children : Children) (uuid : CStr) (σ : State) :
    Outcome (Option ℕ) :=
  loop .divergence
    (fun c _ => do
      let node ← σ.node kind c
      if uuid = σ.strings.read node.uuid then .ok (none, some c) else .ok (node.next, none))
    (σ.nodes kind).length children.head none

/-- The common part of the three add functions: the child `c`, whose list node is `node`, is to
be added to the list `children` of the parent `p`. When D-Bus refuses the new path, the path is
freed, but the child's field keeps the pointer. -/
def addChild (kind : Kind) (accepts : Accepts) (p : ℕ) (parentObjectPath : Ptr CStr)
    (children : Children) (c : ℕ) (node : Node) (σ : State) : Outcome (Bool × State) := do
  if node.parentPath ≠ .null then .ok (false, σ)
  else
    let found ← getChild kind children (σ.strings.read node.uuid) σ
    if found.isSome then .ok (false, σ)
    else
      let (objectPath, strings) :=
        dbusutilsCreateObjectPath σ.strings (σ.strings.read parentObjectPath) kind.objectName
          children.count
      let (success, bus) := dbusutilsRegisterObject σ.bus (strings.read objectPath)
        (kind.object c) accepts
      if !success then
        let σ := { σ with strings := strings.free objectPath }
        .ok (false, σ.setNode kind c { node with objectPath })
      else
        let (parentPath, strings) := strings.alloc (strings.read parentObjectPath)
        let σ := { σ with strings, bus }
        let σ := σ.setNode kind c { node with objectPath, parentPath, next := children.head }
        .ok (true, σ.setChildren kind p { head := some c, count := children.count + 1 })

end BleSim
