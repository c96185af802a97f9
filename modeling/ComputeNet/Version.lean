import ComputeNet.Address.Basic
import ComputeNet.Borsh.Basic

/-!
# Code versions

Nodes that keep their work confidential run measured code. `SemanticVersion` numbers a release,
the major number counting most, and `CodeMeasurement` ties a release to the measurement of its
code.
-/

namespace ComputeNet

/-- The number of a release. -/
structure SemanticVersion where
  major : UInt16
  minor : UInt16
  patch : UInt16
deriving DecidableEq, Ord

namespace SemanticVersion

def fields (v : SemanticVersion) : UInt16 × UInt16 × UInt16 := (v.major, v.minor, v.patch)

instance : Borsh SemanticVersion :=
  Borsh.ofFields fields fun (major, minor, patch) => ⟨major, minor, patch⟩

/-- The later of two releases. -/
def latest (v w : SemanticVersion) : SemanticVersion := if compare v w = .gt then v else w

end SemanticVersion

/-- The measurement of the code of a release. -/
structure CodeMeasurement where
  measurement : Digest
  version : SemanticVersion
deriving DecidableEq

namespace CodeMeasurement

def fields (m : CodeMeasurement) : Digest × SemanticVersion := (m.measurement, m.version)

instance : Borsh CodeMeasurement :=
  Borsh.ofFields fields fun (measurement, version) => ⟨measurement, version⟩

end CodeMeasurement

end ComputeNet
