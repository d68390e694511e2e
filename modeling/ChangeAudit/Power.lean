/-!
# Powers

A power of numbers is the one of the core library, also where a library on top of it has a power of
its own for every monoid: `instPowNat` comes first for literals, `powNat` for everything else.
-/

namespace ChangeAudit

attribute [default_instance 20000] instPowNat

/-- The power of natural numbers. -/
instance (priority := 1100) powNat : Pow Nat Nat := instPowNat

end ChangeAudit
