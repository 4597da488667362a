import Yggdrasil.Mongo.Create

/-! The guest's side of changing the members of a replica set: which script it runs, on
which host. Another guest is reached by a call that may be lost before the guest starts,
and its result may be lost on the way back. -/

namespace Yggdrasil.Mongo

open Effect Python

/-- Run a guest's method from elsewhere. -/
def rpc {α : Type} (guest : String) (method : Action α) : Action α := do
  ask (.rpc guest)
  let result ← method
  ask (.reply guest)
  pure result

def localHost : String := "127.0.0.1"

def runMongosh (guest host : String) (script : Script) : Action Output :=
  ask (.mongosh guest host script)

/-- `str(value or "")`. -/
def hostText (value : Value) : String := (value.orElse (.str "")).toStr

/-- The host without its port or brackets. -/
def mongoshHost (value : Value) : String :=
  let host := (hostText value).toList
  if host.head? = some '[' ∧ ']' ∈ host then
    String.ofList ((host.drop 1).takeWhile (· != ']'))
  else if host.count ':' = 1 then String.ofList (host.takeWhile (· != ':'))
  else String.ofList host

def hostMatches (left right : Value) : Bool :=
  hostText left == hostText right || mongoshHost left == mongoshHost right

/-- What the guest's own server says about its replica set. -/
def replicaHello (guest : String) : Action Mapping := do
  let output ← runMongosh guest localHost .hello
  match output with
  | .json (.dict hello) => pure hello
  | .json _ => fail "object has no attribute 'get'"
  | .text s => fail ("MongoDB did not return replica-set hello data: " ++ s)

/-- The primary that a `hello` names. -/
def primaryHost (hello : Mapping) : Value :=
  if (hello.get "isWritablePrimary").truthy then (hello.get "me").orElse (hello.get "primary")
  else hello.get "primary"

def addReplicaMembers (guest : String) (members : List String) : Action Unit := do
  let _ ← runMongosh guest localHost (.add members)
  pure ()

def removeReplicaMembers (guest : String) (members : List String) : Action Value := do
  let hello ← replicaHello guest
  let primary := primaryHost hello
  if primary.truthy then do
    let script := if members.any fun host => hostMatches primary (.str host) then .stepDown
      else .remove members
    let output ← runMongosh guest (mongoshHost primary) script
    match output with
    | .json result => pure result
    | .text _ => pure (.record
        [("ok", .int 1), ("removed", .bool true), ("hosts", .list (members.map .str))])
  else fail "MongoDB replica set has no elected primary"

end Yggdrasil.Mongo
