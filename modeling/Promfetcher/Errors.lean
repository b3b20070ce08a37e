import Promfetcher.Foundation.Text

/-!
# Errors of a metrics request

`errors/errors.go`: an error with the code of the HTTP response it becomes.
-/

namespace Promfetcher

open Foundation

/-- An error of a request, with the status code to answer. -/
structure ErrFetch where
  code : Nat := 0
  message : GoString := []
  deriving DecidableEq, Repr

/-- The text of `err.Error()`. -/
def ErrFetch.error (err : ErrFetch) : GoString :=
  decimal err.code ++ text " " ++ err.message ++ text "\n"

/-- `ErrNoAppFound`. -/
def errNoAppFound (appIdOrPath : GoString) : ErrFetch where
  code := 404
  message := text "Cannot found app with id or path " ++
    (pathUnescape appIdOrPath).getD appIdOrPath

/-- `ErrNoEndpointFound`. -/
def errNoEndpointFound (appIdOrPath endpoint : GoString) : ErrFetch where
  code := 406
  message := text "Cannot found endpoint '" ++ endpoint ++
    text "' for app with id or path '" ++ (pathUnescape appIdOrPath).getD appIdOrPath ++
    text "', please create one"

@[simp]
theorem errNoEndpointFound_code (appIdOrPath endpoint : GoString) :
    (errNoEndpointFound appIdOrPath endpoint).code = 406 :=
  rfl

end Promfetcher
