import Mathlib

/-!
This module contains the type assignments of TTS-0003, TTS-0005 and TSP-0016.
-/

namespace Tith.Types

def origin : UInt64 := 1
def signature : UInt64 := 2
def signedData : UInt64 := 3
def signedTlv : UInt64 := 4
def timestamp : UInt64 := 5
def destination : UInt64 := 6
def address : UInt64 := 7
def publicKey : UInt64 := 8
def signedOrigin : UInt64 := 9

def message : UInt64 := 64
def file : UInt64 := 65
def fileRequest : UInt64 := 66
def rejected : UInt64 := 67
def accepted : UInt64 := 68
def pollMessages : UInt64 := 69
def pollFiles : UInt64 := 70
def pollFileRequests : UInt64 := 71
def publicKeyRequest : UInt64 := 72
def rejectionReason : UInt64 := 73
def rejectionDescription : UInt64 := 74
def tlvHash : UInt64 := 99

def filename : UInt64 := 96
def contents : UInt64 := 97
def requestIdentifier : UInt64 := 98
def legacyAttributes : UInt64 := 101
def timestampOffset : UInt64 := 102
def toUserName : UInt64 := 103
def fromUserName : UInt64 := 104
def subject : UInt64 := 105
def messageText : UInt64 := 106
def area : UInt64 := 107
def areaName : UInt64 := 108
def areaDescription : UInt64 := 109
def tearLine : UInt64 := 110
def originLine : UInt64 := 111
def seenBy : UInt64 := 112
def via : UInt64 := 113
def messageId : UInt64 := 114
def replyTo : UInt64 := 115
def originalCharacterSet : UInt64 := 116
def additionalKludgeLine : UInt64 := 117
def shortDescription : UInt64 := 118
def longDescriptionLine : UInt64 := 119
def magicWord : UInt64 := 120
def replaces : UInt64 := 121

/--
The types TTS-0005 assigns.
-/
def isBundleDefined (typeCode : UInt64) : Bool :=
  (64 ≤ typeCode && typeCode ≤ 72) || typeCode == rejectionReason ||
    typeCode == rejectionDescription || typeCode == tlvHash

def isDefined (typeCode : UInt64) : Bool :=
  typeCode ≤ 9 || (96 ≤ typeCode && typeCode ≤ 98) || (101 ≤ typeCode && typeCode ≤ 121) ||
    isBundleDefined typeCode

def isRequest (typeCode : UInt64) : Bool :=
  typeCode == message || typeCode == file || typeCode == fileRequest || typeCode == pollMessages ||
    typeCode == pollFiles || typeCode == pollFileRequests || typeCode == publicKeyRequest

end Tith.Types
