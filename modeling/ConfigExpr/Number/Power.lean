/-!
Powers with natural exponents. `x ^ n` means the core power of natural numbers and of integers, also
beside a library that has a power for every monoid.
-/
attribute [instance (2000)] instPowNat
attribute [default_instance 20000] instPowNat
