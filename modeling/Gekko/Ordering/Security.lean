import Gekko.Lib.Json


/-! # `Gekko.Ordering.Security` — which access tokens Order Service accepts

`SecurityConfig` takes the token out of the `Authorization` header, whichever of the two schemes it
comes with, and decodes it with three validators: the time stamps, the issuer and the audience. No
validator asks for a `jti`.
-/

namespace Gekko.Ordering

/-- A decoded access token. Instants count nanoseconds. -/
structure Jwt where
  tokenValue : String
  id : Option String
  subject : Option String
  issuer : Option String
  audience : Option (List String)
  expiresAt : Option Int
  notBefore : Option Int
  cnf : Option Json

/-- A second, in the unit of an `Instant`. -/
def second : Int := 1000000000

/-- `AUDIENCE`. -/
def audience : String := "order-service"

/-- `JwtTimestampValidator`, with its default clock skew of 60 seconds. -/
def timestampValidator (now : Int) (jwt : Jwt) : Bool :=
  jwt.expiresAt.all (fun expiry => decide (now - 60 * second ≤ expiry)) &&
    jwt.notBefore.all fun notBefore => decide (notBefore ≤ now + 60 * second)

/-- `JwtIssuerValidator`. -/
def issuerValidator (issuer : String) (jwt : Jwt) : Bool := jwt.issuer == some issuer

def audienceValidator (jwt : Jwt) : Bool := jwt.audience.any fun audiences => audiences.contains audience

/-- What `jwtDecoder` asks of a token whose signature verifies. -/
def accepts (issuer : String) (now : Int) (jwt : Jwt) : Bool :=
  timestampValidator now jwt && issuerValidator issuer jwt && audienceValidator jwt

end Gekko.Ordering
