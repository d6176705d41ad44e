/-!
# Natural numbers

Powers and sums of naturals are those of the core library, whatever else is in scope. A formula of
the program is then the same term where it runs and where something is proved about it.

## Main definitions

* `corePow`: a power of a natural, preferred to that of a monoid.
* `coreZero`: the zero that a sum of naturals starts from, preferred to that of a semiring.
-/

namespace BeaconEpoch

@[default_instance 20000]
instance (priority := 1100) corePow : Pow Nat Nat := instPowNat

instance (priority := 1100) coreZero : Zero Nat := Zero.ofOfNat0

end BeaconEpoch
