/-! Status codes of the Media SDK and of VA that the example produces. -/
namespace VideoAnalytics

inductive MfxStatus
  | errNone
  | errUnknown
  | errNullPtr
  | errUnsupported
  | errMemoryAlloc
  | errNotInitialized
  | errMoreData
  deriving DecidableEq, Repr

inductive VAStatus
  | success
  | errorAllocationFailed
  | errorAttrNotSupported
  | errorUnsupportedProfile
  | errorUnsupportedEntrypoint
  | errorUnsupportedRtFormat
  | errorUnsupportedBuffertype
  | errorFlagNotSupported
  | errorResolutionNotSupported
  | errorInvalidDisplay
  | errorInvalidConfig
  | errorInvalidContext
  | errorInvalidSurface
  | errorInvalidBuffer
  | errorInvalidImage
  | errorInvalidSubpicture
  | errorInvalidParameter
  | other (code : Nat)
  deriving DecidableEq, Repr

def vaToMfxStatus : VAStatus → MfxStatus
  | .success => .errNone
  | .errorAllocationFailed => .errMemoryAlloc
  | .errorAttrNotSupported | .errorUnsupportedProfile | .errorUnsupportedEntrypoint
  | .errorUnsupportedRtFormat | .errorUnsupportedBuffertype | .errorFlagNotSupported
  | .errorResolutionNotSupported => .errUnsupported
  | .errorInvalidDisplay | .errorInvalidConfig | .errorInvalidContext
  | .errorInvalidSurface | .errorInvalidBuffer | .errorInvalidImage
  | .errorInvalidSubpicture => .errNotInitialized
  -- The case of an invalid parameter has no break and falls into the default.
  | .errorInvalidParameter => .errUnknown
  | .other _ => .errUnknown

theorem vaToMfxStatus_errNone (status : VAStatus) :
    vaToMfxStatus status = .errNone ↔ status = .success := by
  cases status <;> simp [vaToMfxStatus]

end VideoAnalytics
