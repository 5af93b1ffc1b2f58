/-!
# Identities

A watched container and every view of it carry a `ContainerId`, a number that is given out once.
Handlers and root hooks are objects of a world (`Handler/World.lean`) and are named by their place
in it.  Elements may be objects too: two equal elements can still be different instances, and
`ObjectIdentity` tells them apart.
-/

namespace WatchedContainers

structure ContainerId where
  number : Nat
deriving DecidableEq

namespace ContainerId

/-- The short form used in running text. -/
def text (id : ContainerId) : String := "#" ++ toString id.number

/-- The long form used inside records. -/
def debugText (id : ContainerId) : String := "ContainerId(" ++ toString id.number ++ ")"

end ContainerId

structure HandlerRef where
  index : Nat
deriving DecidableEq

structure HooksRef where
  index : Nat
deriving DecidableEq

/-- Whether two elements are one object.  Plain values are never one object with another. -/
class ObjectIdentity (α : Type) where
  sameObject : α → α → Bool

export ObjectIdentity (sameObject)

instance : ObjectIdentity Int := ⟨fun _ _ => false⟩
instance : ObjectIdentity String := ⟨fun _ _ => false⟩

end WatchedContainers
