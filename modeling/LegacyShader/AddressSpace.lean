/-!
# Address spaces

The kinds of memory that variables live in.
-/

namespace LegacyShader

/-- Where a variable lives. -/
inductive AddressSpace where
  /-- Memory of one call of a function. -/
  | function
  /-- Memory of one invocation. -/
  | perInvocation
  /-- Memory that a group of invocations shares. -/
  | workGroup
  /-- Uniform blocks. -/
  | uniform
  /-- Memory that the host shares, with what may be done to it. -/
  | storage (load store : Bool)
  /-- Textures and samplers. -/
  | handle
  /-- A small block that comes with each command. -/
  | pushConstant
  deriving DecidableEq, Repr, Inhabited

namespace AddressSpace

/-- What may be done to storage, in messages. -/
def accessShown (load store : Bool) : String :=
  let flags := (if load then ["LOAD"] else []) ++ (if store then ["STORE"] else [])
  "StorageAccess(" ++ (if flags.isEmpty then "0x0" else " | ".intercalate flags) ++ ")"

/-- An address space in messages. -/
def shown : AddressSpace → String
  | .function => "Function"
  | .perInvocation => "Private"
  | .workGroup => "WorkGroup"
  | .uniform => "Uniform"
  | .storage load store => "Storage \x7b access: " ++ accessShown load store ++ " \x7d"
  | .handle => "Handle"
  | .pushConstant => "PushConstant"

/-- Whether something in an address space can be read. -/
def readable : AddressSpace → Bool
  | .storage load _ => load
  | _ => true

/-- Whether something in an address space can be written. -/
def writable : AddressSpace → Bool
  | .function | .perInvocation | .workGroup => true
  | .storage _ store => store
  | .uniform | .handle | .pushConstant => false

end AddressSpace

end LegacyShader
