set_option autoImplicit false

/-!
# Names of broadcast ports

Every task name has a counter of its own. The names made for it are the task name, a number sign
and the count, so that ports of one task are told apart.
-/

namespace CallExchange

structure PortNames where
  counts : List (String × UInt64)

namespace PortNames

def empty : PortNames := ⟨[]⟩

def count (r : PortNames) (task : String) : UInt64 := (r.counts.lookup task).getD 0

def name (task : String) (n : UInt64) : String := task ++ "#" ++ toString n.toNat

def next (r : PortNames) (task : String) : String × PortNames :=
  (name task (r.count task),
    ⟨(task, r.count task + 1) :: r.counts.filter fun e => !(e.1 == task)⟩)

def nextAll (r : PortNames) : List String → List String × PortNames
  | [] => ([], r)
  | task :: tasks =>
    let (n, r) := r.next task
    let (ns, r) := r.nextAll tasks
    (n :: ns, r)

end PortNames

end CallExchange
