import Mathlib.Tactic.Common
import PesitWizard.Library.BigEndian

/-! Diagnostics (PI 2) that the protocol engines produce or test for. -/

namespace PesitWizard.Core

open Library.BigEndian

abbrev Bytes := List UInt8

structure Diagnostic where
  kind : UInt8
  code : UInt16
  deriving DecidableEq

namespace Diagnostic

def ok : Diagnostic := ⟨0, 0⟩
def transmissionError : Diagnostic := ⟨1, 100⟩
def fileExists : Diagnostic := ⟨2, 204⟩
def fileNotFound : Diagnostic := ⟨2, 205⟩
def diskQuota : Diagnostic := ⟨2, 206⟩
def voluntaryStop : Diagnostic := ⟨2, 216⟩
def transferRefused : Diagnostic := ⟨2, 226⟩
def ioError : Diagnostic := ⟨2, 213⟩
def restartUnknownSync : Diagnostic := ⟨2, 228⟩
def callerUnknown : Diagnostic := ⟨3, 301⟩
def selectNegotiation : Diagnostic := ⟨3, 305⟩
def networkIncident : Diagnostic := ⟨3, 310⟩
def remoteProtocolError : Diagnostic := ⟨3, 311⟩
def negotiationFailure : Diagnostic := ⟨3, 315⟩
def timeout : Diagnostic := ⟨3, 317⟩
def invalidParameter : Diagnostic := ⟨3, 318⟩
def invalidCounts : Diagnostic := ⟨3, 319⟩

def isOk (d : Diagnostic) : Bool := d.kind == 0 && d.code == 0

def toBytes (d : Diagnostic) : Bytes := d.kind :: be16 d.code.toNat

def fromBytes : Bytes → Option Diagnostic
  | [] => none
  | [k] => some ⟨k, 0⟩
  | [k, c] => some ⟨k, UInt16.ofNat c.toNat⟩
  | k :: hi :: lo :: _ => some ⟨k, UInt16.ofNat (ofBe16 hi lo)⟩

end Diagnostic

end PesitWizard.Core
