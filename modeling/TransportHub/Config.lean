import TransportHub.Handle
import TransportHub.Text.Size
/-!
Configuration of the workers: how their threads are named, how large their stacks are, and whether a
shutdown waits for them.

A configuration starts from the environment and is then adjusted. The name of a worker's thread shows
which lane it serves.
-/
namespace TransportHub

structure Environment where
  threadPrefix : Option ByteArray := none
  stackKilobytes : Option ByteArray := none

/-- The text of a value; a value that is not UTF-8 counts as unset. -/
def Environment.text? (value : Option ByteArray) : Option String :=
  value.bind String.fromUTF8?

structure Config where
  threadPrefix : String
  stackSize : Option Nat
  joinWorkers : Bool
deriving DecidableEq, Repr

inductive Config.Setting where
  | threadPrefix (value : String)
  | stackSize (bytes : Nat)
  | joinWorkers (join : Bool)
deriving DecidableEq, Repr

namespace Config

def defaultPrefix : String := "ivi-tm"

/-- The configuration an environment asks for; what it does not set keeps its default. The bytes of a
stack are counted in a word of 64 bits. -/
def ofEnvironment (env : Environment) : Config where
  threadPrefix := ((Environment.text? env.threadPrefix).filter (· ≠ "")).getD defaultPrefix
  stackSize :=
    ((Environment.text? env.stackKilobytes).bind fun s => Text.size? s.toList)
      |>.filter (0 < ·) |>.map (· * 1024 % UInt64.size)
  joinWorkers := true

def set (c : Config) : Setting → Config
  | .threadPrefix value => { c with threadPrefix := value }
  | .stackSize bytes => { c with stackSize := some bytes }
  | .joinWorkers join => { c with joinWorkers := join }

def setAll (c : Config) (settings : List Setting) : Config :=
  settings.foldl set c

def deviceThread (c : Config) : String :=
  c.threadPrefix ++ "-device"

def dataThread (c : Config) (connection : ConnectionHandle) : String :=
  c.threadPrefix ++ "-data-" ++ toString connection

end Config
end TransportHub
