import Mathlib

/-!
# CEC messages and the six recognisers

The message type of `vc_cec.h` and the tests of `main.cpp` that tell which handler
a message is for. The payload is the whole array of the struct: what lies in it
past `length` is whatever the memory held. Opcodes and device numbers are those
of the HDMI-CEC standard.
-/

namespace CecFix.Cec

inductive CecAllDevices where
  | eTV | eRec1 | eRec2 | eSTB1 | eDVD1 | eAudioSystem | eSTB2 | eSTB3 | eDVD2 | eRec3 | eSTB4
  | eDVD3 | eRsvd3 | eRsvd4 | eFreeUse | eUnRegistered
  deriving DecidableEq, Repr

/-- `CEC_BROADCAST_ADDR`, address 15 -/
def cecBroadcastAddr : CecAllDevices := .eUnRegistered

def opcodeImageViewOn : UInt8 := 0x04
def opcodeTextViewOn : UInt8 := 0x0D
def opcodeStandby : UInt8 := 0x36
def opcodeGiveOSDName : UInt8 := 0x46
def opcodeSetOSDName : UInt8 := 0x47
def opcodeGivePhysicalAddress : UInt8 := 0x83
def opcodeReportPhysicalAddress : UInt8 := 0x84
def opcodeSetStreamPath : UInt8 := 0x86
def opcodeDeviceVendorID : UInt8 := 0x87
def opcodeGiveDeviceVendorID : UInt8 := 0x8C
def opcodeGiveDevicePowerStatus : UInt8 := 0x8F
def opcodeReportPowerStatus : UInt8 := 0x90

def cecPowerStatusOn : UInt8 := 0
def cecPowerStatusStandby : UInt8 := 1
def cecVendorIdBroadcom : ℕ := 0x18C086

/-- `OSD_NAME`, "JVC NX7" -/
def osdName : List UInt8 := [0x4A, 0x56, 0x43, 0x20, 0x4E, 0x58, 0x37]

-- so that numerals name the bytes of the payload
instance payload_nonempty : NeZero 16 := ⟨by decide⟩

structure VcCecMessage where
  length : ℕ
  initiator : CecAllDevices
  follower : CecAllDevices
  payload : Fin 16 → UInt8

def isReportPhysicalAddress (m : VcCecMessage) : Bool :=
  1 < m.length && m.payload 0 == opcodeReportPhysicalAddress

def isImageViewOn (m : VcCecMessage) : Bool :=
  m.length == 1 && (m.payload 0 == opcodeImageViewOn || m.payload 0 == opcodeTextViewOn)

def isTVOffCmd (m : VcCecMessage) : Bool :=
  (m.follower == .eTV || m.follower == cecBroadcastAddr) && m.initiator != .eTV &&
    m.length == 1 && m.payload 0 == opcodeStandby

def isRequestForVendorId (m : VcCecMessage) : Bool :=
  m.follower == .eTV && m.length == 1 && m.payload 0 == opcodeGiveDeviceVendorID

def isRequestForPowerStatus (m : VcCecMessage) : Bool :=
  m.follower == .eTV && m.length == 1 && m.payload 0 == opcodeGiveDevicePowerStatus

def isGiveOSDName (m : VcCecMessage) : Bool :=
  m.length == 1 && m.payload 0 == opcodeGiveOSDName

theorem not_recognised_of_length {m : VcCecMessage} (h : m.length ≠ 1) :
    isImageViewOn m = false ∧ isTVOffCmd m = false ∧ isRequestForVendorId m = false ∧
      isRequestForPowerStatus m = false ∧ isGiveOSDName m = false := by
  simp [isImageViewOn, isTVOffCmd, isRequestForVendorId, isRequestForPowerStatus, isGiveOSDName, h]

theorem length_of_report {m : VcCecMessage} (h : isReportPhysicalAddress m = true) :
    1 < m.length := by
  simp only [isReportPhysicalAddress, Bool.and_eq_true, decide_eq_true_eq] at h
  exact h.1

end CecFix.Cec
