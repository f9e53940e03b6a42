import VideoAnalytics.FloatType
import VideoAnalytics.Library.Memory

/-! What the layers of the CPU extension share: blobs with their dimensions and the
failures of execute. -/
namespace VideoAnalytics

/-- A blob of floats: its dimensions and its data, by address. -/
structure ExtBlob (F : Type) where
  dims : List Nat
  data : Memory F

def ExtBlob.dim {F : Type} (blob : ExtBlob F) (axis : Nat) : Nat := blob.dims.getD axis 0

/-- How execute fails: with GENERAL_ERROR and a message, or in an access beyond the
entries of an array. -/
inductive ExtFailure
  | generalError (message : String)
  | outside (first : Nat)
  deriving DecidableEq, Repr

def incorrectEdges : ExtFailure := .generalError "Incorrect number of input or output edges!"

/-- The elements of a blob of up to four dimensions. -/
def elements (dims : List Nat) : Nat :=
  dims.getD 0 1 * (dims.getD 1 1 * (dims.getD 2 1 * dims.getD 3 1))

/-- The offset of an element in a blob of four dimensions. -/
def element (C H W b c h w : Nat) : Nat := b * C * H * W + c * H * W + h * W + w

theorem element_eq (C H W b c h w : Nat) :
    element C H W b c h w = (b * C + c) * (H * W) + (h * W + w) := by
  unfold element
  ring

end VideoAnalytics
