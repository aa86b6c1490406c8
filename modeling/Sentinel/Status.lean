import Mathlib.Tactic

/-! `NTSTATUS` and the values the driver returns or compares with. -/
namespace Sentinel

/-- `NTSTATUS`: 32 bits, negative for errors. -/
abbrev NtStatus := BitVec 32

def statusSuccess : NtStatus := 0x00000000#32
def statusTimeout : NtStatus := 0x00000102#32
def statusDeviceBusy : NtStatus := 0x80000011#32
def statusUnsuccessful : NtStatus := 0xC0000001#32
def statusInvalidParameter : NtStatus := 0xC000000D#32
def statusInvalidDeviceRequest : NtStatus := 0xC0000010#32
def statusAccessDenied : NtStatus := 0xC0000022#32
def statusBufferTooSmall : NtStatus := 0xC0000023#32
def statusRevisionMismatch : NtStatus := 0xC0000059#32
def statusInsufficientResources : NtStatus := 0xC000009A#32
def statusDeviceNotReady : NtStatus := 0xC00000A3#32
def statusInvalidDeviceState : NtStatus := 0xC0000184#32
def statusNotFound : NtStatus := 0xC0000225#32
def statusRetry : NtStatus := 0xC000022D#32
def statusObjectidExists : NtStatus := 0xC00002A8#32
def fwpECalloutNotFound : NtStatus := 0x80320001#32
def fwpEFilterNotFound : NtStatus := 0x80320003#32
def fwpEProviderNotFound : NtStatus := 0x80320005#32
def fwpESublayerNotFound : NtStatus := 0x80320007#32

/-- `NT_SUCCESS`. -/
def ntSuccess (st : NtStatus) : Bool := !st.slt 0#32

end Sentinel
