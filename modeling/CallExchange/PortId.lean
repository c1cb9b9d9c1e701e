set_option autoImplicit false

/-!
# Port numbers

Ports are numbered by signed words. Every negative number stands for "no port".
-/

namespace CallExchange

structure PortId where
  raw : Int64
deriving DecidableEq

namespace PortId

def absent : PortId := ⟨-1⟩

def isAbsent (p : PortId) : Bool := p.raw < 0

def next (p : PortId) : PortId := ⟨p.raw + 1⟩

def order (p q : PortId) : Ordering := compare p.raw.toInt q.raw.toInt

def number (p : PortId) : String :=
  toString p.raw.toInt

def label (p : PortId) : String :=
  if p.isAbsent then "port:none" else "port:" ++ p.number

def diagnostic (p : PortId) : String :=
  if p.isAbsent then "PortId(NONE)" else "PortId(" ++ p.number ++ ")"

end PortId

end CallExchange
