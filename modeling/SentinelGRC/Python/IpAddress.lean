import SentinelGRC.Python.Decimal

/-! The texts that `ipaddress.ip_address` accepts. It raises a `ValueError` on every other. -/

namespace SentinelGRC.Python

/-- `IPv4Address._parse_octet`. -/
def isOctet (t : Text) : Bool :=
  !t.isEmpty && t.all isDigit && t.length ≤ 3 && (t == lit "0" || t.head? != some (ofChar '0')) &&
    ofDigits t ≤ 255

/-- `IPv4Address(t)`. -/
def isIpv4Address (t : Text) : Bool :=
  let octets := t.splitOn (ofChar '.')
  octets.length == 4 && octets.all isOctet

def isHexDigit (c : CodePoint) : Bool :=
  isDigit c || (0x41 ≤ c.val && c.val ≤ 0x46) || (0x61 ≤ c.val && c.val ≤ 0x66)

/-- `IPv6Address._parse_hextet`. -/
def isHextet (t : Text) : Bool := !t.isEmpty && t.all isHexDigit && t.length ≤ 4

/-- The groups between colons, where an IPv4 suffix stands for two groups. -/
def ipv6Groups (t : Text) : Option (List Text) :=
  let parts := t.splitOn (ofChar ':')
  if parts.length < 3 then none
  else match parts.getLast? with
    | some suffix =>
      if ofChar '.' ∈ suffix then
        if isIpv4Address suffix then some (parts.dropLast ++ [lit "0", lit "0"]) else none
      else some parts
    | none => none

/-- The groups on one side of `::`, given the group at the text's end; that group may be empty
only when it is alone. -/
def sideLength (side : List Text) (outer : Option Text) : Option ℕ :=
  if outer = some [] then if side.length = 1 then some 0 else none
  else if side.all isHextet then some side.length else none

/-- `IPv6Address._ip_int_from_string`. -/
def isIpv6Text (t : Text) : Bool :=
  match ipv6Groups t with
  | none => false
  | some parts =>
    let skips := (List.range parts.length).filter fun i =>
      1 ≤ i && i + 1 < parts.length && parts[i]? == some []
    parts.length ≤ 9 && match skips with
      | [] => parts.length == 8 && parts.all isHextet
      | [skip] =>
        match sideLength (parts.take skip) parts.head?,
          sideLength (parts.drop (skip + 1)) parts.getLast? with
        | some high, some low => high + low < 8
        | _, _ => false
      | _ => false

/-- `IPv6Address(t)`: an address, and after `%` a scope. -/
def isIpv6Address (t : Text) : Bool :=
  let address := t.takeWhile (· != ofChar '%')
  let scope := t.dropWhile (· != ofChar '%')
  !t.contains (ofChar '/') && isIpv6Text address &&
    (scope.isEmpty || (!scope.tail.isEmpty && !scope.tail.contains (ofChar '%')))

/-- `ip_address(t)`. -/
def isIpAddress (t : Text) : Bool := isIpv4Address t || isIpv6Address t

example : isIpAddress (lit "10.0.0.255") = true ∧ isIpAddress (lit "10.0.0.256") = false ∧
    isIpAddress (lit "::1") = true ∧ isIpAddress (lit "fe80::1%eth0") = true ∧
    isIpAddress (lit "1::2::3") = false ∧ isIpAddress (lit "::ffff:10.0.0.1") = true := by
  decide +kernel

end SentinelGRC.Python
