import NewApi.Model.StatusCodeRanges

/-!
# Relay errors

The error that an attempt of the relay ends with, its conversion to the OpenAI format and the
classification that the retry loop and the violation fee rest on.
-/

namespace NewApi.Model

open NewApi.Lib.Strings

def ErrorTypeNewAPIError : String := "new_api_error"

def ErrorTypeOpenAIError : String := "openai_error"

def ErrorTypeClaudeError : String := "claude_error"

def ErrorCodeCountTokenFailed : String := "count_token_failed"

def ErrorCodeGetChannelFailed : String := "get_channel_failed"

def ErrorCodeReadRequestBodyFailed : String := "read_request_body_failed"

def ErrorCodeQueryDataError : String := "query_data_error"

def ErrorCodeInsufficientUserQuota : String := "insufficient_user_quota"

def ErrorCodePreConsumeTokenQuotaFailed : String := "pre_consume_token_quota_failed"

def ErrorCodeViolationFeeGrokCSAM : String := "violation_fee.grok.csam"

def ViolationFeeCodePrefix : String := "violation_fee."

def CSAMViolationMarker : String := "Failed check: SAFETY_CHECK_TYPE_CSAM"

/-- `types.OpenAIError`.  The code is the text that `%v` prints of it, absent when nil; the
metadata is empty when absent. -/
structure OpenAIError where
  message : String
  type : String
  param : String
  code : Option String
  metadata : String
deriving DecidableEq

/-- `types.ClaudeError`. -/
structure ClaudeError where
  type : String
  message : String
deriving DecidableEq

/-- The dynamic type of the field `RelayError`. -/
inductive RelayError
  | none
  | openAI (error : OpenAIError)
  | claude (error : ClaudeError)
deriving DecidableEq

/-- `types.NewAPIError`; `err` is the text of the wrapped error, absent when nil. -/
structure NewAPIError where
  err : Option String
  relayError : RelayError
  skipRetry : Bool
  recordErrorLog : Option Bool
  errorType : String
  errorCode : String
  statusCode : ℤ
  metadata : String
deriving DecidableEq

namespace NewAPIError

/-- The method `Error`. -/
def error (e : NewAPIError) : String :=
  e.err.getD e.errorCode

/-- `ErrOptionWithSkipRetry`. -/
def withSkipRetry (e : NewAPIError) : NewAPIError :=
  { e with skipRetry := true }

/-- `ErrOptionWithNoRecordErrorLog`. -/
def withNoRecordErrorLog (e : NewAPIError) : NewAPIError :=
  { e with recordErrorLog := some false }

/-- `NewError` of a plain error. -/
def newError (err errorCode : String) : NewAPIError where
  err := some err
  relayError := .none
  skipRetry := false
  recordErrorLog := none
  errorType := ErrorTypeNewAPIError
  errorCode := errorCode
  statusCode := 500
  metadata := ""

/-- `NewErrorWithStatusCode`. -/
def newErrorWithStatusCode (err errorCode : String) (statusCode : ℤ) : NewAPIError where
  err := some err
  relayError := .openAI
    { message := err, type := errorCode, param := "", code := none, metadata := "" }
  skipRetry := false
  recordErrorLog := none
  errorType := ErrorTypeNewAPIError
  errorCode := errorCode
  statusCode := statusCode
  metadata := ""

/-- `WithOpenAIError`: metadata is also appended to the message. -/
def withOpenAIError (openAIError : OpenAIError) (statusCode : ℤ) : NewAPIError :=
  let code := openAIError.code.getD "unknown_error"
  let typed : OpenAIError :=
    { openAIError with
      type := if openAIError.type = "" then "upstream_error" else openAIError.type }
  let told : OpenAIError :=
    if typed.metadata = "" then typed
    else { typed with message := typed.message ++ " (" ++ typed.metadata ++ ")" }
  { err := some told.message
    relayError := .openAI told
    skipRetry := false
    recordErrorLog := none
    errorType := ErrorTypeOpenAIError
    errorCode := code
    statusCode := statusCode
    metadata := told.metadata }

section Mask

/- `common.MaskSensitiveInfo`. -/
variable (maskSensitiveInfo : String → String)

/-- The error in the OpenAI format before its message is masked. -/
def openAIResult (e : NewAPIError) : OpenAIError :=
  if e.errorType = ErrorTypeOpenAIError then
    match e.relayError with
    | .openAI openAIError => openAIError
    | _ => { message := "", type := "", param := "", code := none, metadata := "" }
  else if e.errorType = ErrorTypeClaudeError then
    match e.relayError with
    | .claude claudeError =>
        { message := e.error, type := claudeError.type, param := "", code := some e.errorCode,
          metadata := "" }
    | _ => { message := "", type := "", param := "", code := none, metadata := "" }
  else
    { message := e.error, type := e.errorType, param := "", code := some e.errorCode,
      metadata := "" }

/-- `ToOpenAIError`. -/
def toOpenAIError (e : NewAPIError) : OpenAIError :=
  let result := e.openAIResult
  let message :=
    if e.errorCode = ErrorCodeCountTokenFailed then result.message
    else maskSensitiveInfo result.message
  { result with message := if message = "" then e.errorType else message }

/-- `HasCSAMViolationMarker`. -/
def hasCSAMViolationMarker (e : NewAPIError) : Bool :=
  contains e.error CSAMViolationMarker ||
    contains (e.toOpenAIError maskSensitiveInfo).message CSAMViolationMarker

/-- `IsViolationFeeCode`. -/
def isViolationFeeCode (code : String) : Bool :=
  hasPrefix code ViolationFeeCodePrefix

/-- `WrapAsViolationFeeGrokCSAM`. -/
def wrapAsViolationFeeGrokCSAM (e : NewAPIError) : NewAPIError :=
  let oai : OpenAIError :=
    { e.toOpenAIError maskSensitiveInfo with
      type := ErrorCodeViolationFeeGrokCSAM
      code := some ErrorCodeViolationFeeGrokCSAM }
  (withOpenAIError oai e.statusCode).withSkipRetry

/-- `NormalizeViolationFeeError`: a violation is never retried. -/
def normalizeViolationFeeError (e : NewAPIError) : NewAPIError :=
  if e.hasCSAMViolationMarker maskSensitiveInfo then
    e.wrapAsViolationFeeGrokCSAM maskSensitiveInfo
  else if isViolationFeeCode e.errorCode then
    (withOpenAIError (e.toOpenAIError maskSensitiveInfo) e.statusCode).withSkipRetry
  else e

/-- `shouldChargeViolationFee`. -/
def shouldChargeViolationFee (e : NewAPIError) : Bool :=
  e.errorCode = ErrorCodeViolationFeeGrokCSAM || e.hasCSAMViolationMarker maskSensitiveInfo

end Mask

/-- `IsChannelError`. -/
def isChannelError (e : NewAPIError) : Bool :=
  hasPrefix e.errorCode "channel:"

end NewAPIError

/-- `shouldRetry`, with the number of retries that are left. -/
def shouldRetry (retryRanges : List StatusCodeRange) (specificChannel : Bool) (e : NewAPIError)
    (retryTimes : ℤ) : Bool :=
  if e.isChannelError then true
  else if e.skipRetry then false
  else if retryTimes ≤ 0 then false
  else if specificChannel then false
  else if 200 ≤ e.statusCode && e.statusCode < 300 then false
  else if e.statusCode < 100 || 599 < e.statusCode then true
  else StatusCodeRanges.shouldMatchStatusCodeRanges retryRanges e.statusCode

namespace NewAPIError

variable {maskSensitiveInfo : String → String}

/-- A marked error ends the retry loop. -/
theorem normalize_not_retried (e : NewAPIError) (retryRanges : List StatusCodeRange)
    (specificChannel : Bool) (retryTimes : ℤ)
    (hmarked : e.hasCSAMViolationMarker maskSensitiveInfo = true) :
    shouldRetry retryRanges specificChannel (e.normalizeViolationFeeError maskSensitiveInfo)
      retryTimes = false := by
  have hskip : (e.normalizeViolationFeeError maskSensitiveInfo).skipRetry = true := by
    rw [normalizeViolationFeeError, if_pos hmarked]
    rfl
  have hcode : (e.normalizeViolationFeeError maskSensitiveInfo).isChannelError = false := by
    rw [normalizeViolationFeeError, if_pos hmarked]
    show hasPrefix ErrorCodeViolationFeeGrokCSAM "channel:" = false
    decide
  rw [shouldRetry, hcode, hskip]
  rfl

end NewAPIError

end NewApi.Model
