/-
Numbering spaces: what the number that selects the next layer means.

A contract has an identity, a width, and names for some of its numbers. The four contracts of the layers in
this library stand below.
-/
import PacketStack.Number.Text

namespace PacketStack

structure Contract where
  id : String
  bits : Nat
  names : List (String × Number)
  deriving DecidableEq

namespace Contract

/-- The first name the contract has for a number. -/
def name? (c : Contract) (value : Number) : Option String :=
  (c.names.find? (·.2.agrees value)).map (·.1)

/-- The number in hexadecimal, as wide as the contract, and its name in parentheses. -/
def describe (c : Contract) (value : Number) : String :=
  let digits := value.hexText (c.bits / 4)
  match c.name? value with
  | some name => digits ++ " (" ++ name ++ ")"
  | none => digits

def etherType : Contract where
  id := "ether-type"
  bits := 16
  names := [("IPV4", 0x0800), ("ARP", 0x0806), ("IPV6", 0x86dd)]

def ipNumber : Contract where
  id := "ip-number"
  bits := 8
  names := [("TCP", 6), ("UDP", 17), ("ICMPV6", 58), ("IPV6_NONXT", 59)]

def ndOptionType : Contract where
  id := "nd-option-type"
  bits := 8
  names := [("SOURCE_LINK_LAYER_ADDRESS", 1), ("TARGET_LINK_LAYER_ADDRESS", 2), ("PREFIX_INFORMATION", 3),
    ("REDIRECTED_HEADER", 4), ("MTU", 5)]

def sshMessageNumber : Contract where
  id := "ssh-message-number"
  bits := 8
  names := [("DISCONNECT", 1), ("IGNORE", 2), ("UNIMPLEMENTED", 3), ("DEBUG", 4), ("SERVICE_REQUEST", 5),
    ("SERVICE_ACCEPT", 6), ("KEXINIT", 20), ("NEWKEYS", 21)]

def builtIn : List Contract := [etherType, ipNumber, ndOptionType, sshMessageNumber]

/-- The EtherType of IPv6. -/
def ipv6EtherType : Nat := 0x86dd

/-- The IP number of UDP. -/
def udpNumber : Nat := 17

/-- The IP number that says that nothing follows. -/
def noNextHeader : Nat := 59

/-- The ND option type of the redirected header. -/
def redirectedType : Nat := 4

end Contract
end PacketStack
