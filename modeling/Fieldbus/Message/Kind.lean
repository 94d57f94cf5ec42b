import Fieldbus.Codec.Reader

/-!
# Kinds of network-layer messages

Every network-layer message says what it is with one code byte; codes from 0x80 on belong to
vendors and are followed by the vendor's number. `MessageKind` names the standard kinds and
keeps the codes it does not name. Main statement: reading a kind after writing it gives it
back, for every kind that a code byte can stand for (`reader_bytes_append`).
-/

namespace Fieldbus

/-- The first code that is followed by a vendor's number. -/
def proprietaryBase : UInt8 := 0x80

/-- What a network-layer message is about. -/
inductive MessageKind where
  | whoIsRouterToNetwork
  | iAmRouterToNetwork
  | iCouldBeRouterToNetwork
  | rejectMessageToNetwork
  | routerBusyToNetwork
  | routerAvailableToNetwork
  | initializeRoutingTable
  | initializeRoutingTableAck
  | establishConnectionToNetwork
  | disconnectConnectionToNetwork
  | whatIsNetworkNumber
  /-- Announces the number of the sender's segment; it stays on that segment. -/
  | networkNumberIs
  /-- A code without a name here. -/
  | reserved (code : UInt8)
  /-- A message of a vendor. -/
  | proprietary (code : UInt8) (vendor : UInt16)
  deriving DecidableEq, Repr

namespace MessageKind

/-- The byte that says which kind a message is of. -/
def code : MessageKind → UInt8
  | whoIsRouterToNetwork => 0x00
  | iAmRouterToNetwork => 0x01
  | iCouldBeRouterToNetwork => 0x02
  | rejectMessageToNetwork => 0x03
  | routerBusyToNetwork => 0x04
  | routerAvailableToNetwork => 0x05
  | initializeRoutingTable => 0x06
  | initializeRoutingTableAck => 0x07
  | establishConnectionToNetwork => 0x08
  | disconnectConnectionToNetwork => 0x09
  | whatIsNetworkNumber => 0x12
  | networkNumberIs => 0x13
  | reserved code => code
  | proprietary code _ => code

/-- The kind a code without a vendor's number stands for. -/
def standard (code : UInt8) : MessageKind :=
  match code with
  | 0x00 => whoIsRouterToNetwork
  | 0x01 => iAmRouterToNetwork
  | 0x02 => iCouldBeRouterToNetwork
  | 0x03 => rejectMessageToNetwork
  | 0x04 => routerBusyToNetwork
  | 0x05 => routerAvailableToNetwork
  | 0x06 => initializeRoutingTable
  | 0x07 => initializeRoutingTableAck
  | 0x08 => establishConnectionToNetwork
  | 0x09 => disconnectConnectionToNetwork
  | 0x12 => whatIsNetworkNumber
  | 0x13 => networkNumberIs
  | other => reserved other

/-- The code byte and, for a vendor's message, the vendor's number. -/
def bytes : MessageKind → Bytes
  | proprietary code vendor => code :: Bytes.word vendor
  | kind => [kind.code]

/-- How many bytes say what kind a message is of. -/
def size : MessageKind → Nat
  | proprietary .. => 3
  | _ => 1

/-- Reads a code and, from `proprietaryBase` on, the vendor's number behind it. -/
def reader : Reader MessageKind := do
  let code ← Reader.byte
  if code ≥ proprietaryBase then return proprietary code (← Reader.word)
  return standard code

/-- The kind's code and its form agree on whether a vendor's number follows. -/
def Consistent : MessageKind → Prop
  | reserved code => code < proprietaryBase
  | proprietary code _ => proprietaryBase ≤ code
  | _ => True

instance : DecidablePred Consistent := fun kind => by
  cases kind <;> unfold Consistent <;> infer_instance

/-- The kind its code is read as, which names a reserved code that has a name. -/
def named : MessageKind → MessageKind
  | reserved code => standard code
  | kind => kind

@[simp] theorem length_bytes (kind : MessageKind) : kind.bytes.length = kind.size := by
  cases kind <;> rfl

/-- Writing and reading a kind gives it back under its name. -/
theorem reader_bytes_append {kind : MessageKind} (h : kind.Consistent) (rest : Bytes) :
    reader (kind.bytes ++ rest) = .ok kind.named rest := by
  cases kind with
  | reserved code =>
    have hc : ¬ proprietaryBase ≤ code := by
      simpa [Consistent, UInt8.not_le] using h
    simp [reader, bytes, MessageKind.code, named, Reader.byte, bind, EStateM.bind, pure,
      EStateM.pure, hc]
  | proprietary code vendor =>
    have hc : proprietaryBase ≤ code := h
    simp only [reader, bytes, named, List.cons_append, Reader.byte, bind, EStateM.bind, ge_iff_le,
      hc, ite_true, Reader.word_append, pure, EStateM.pure]
  | _ => rfl

end MessageKind

end Fieldbus
