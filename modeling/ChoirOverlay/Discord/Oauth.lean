-- SUMMARY: The exchange of an authorization code for an access token.
import ChoirOverlay.Json.Value

/-! # Token exchange -/

namespace Choir

structure HttpResponse where
  status : Int := 0
  body : Bytes := []

structure TokenResult where
  ok : Bool := false
  accessToken : Bytes := []
  refreshToken : Bytes := []
  error : Bytes := []

/-- A body cut down for an error message. -/
def snippet (body : Bytes) : Bytes :=
  if body.length ≤ 200 then body else body.take 200 ++ ascii "..."

/-- `exchange_code`, on the response `post_json` returns. -/
def exchangeCode (lib : JsonLib) (resp : HttpResponse) : TokenResult :=
  if resp.status ≠ 200 then
    { error := ascii "token exchange failed: HTTP " ++ toDecimal resp.status ++
        ascii " body=" ++ snippet resp.body }
  else match lib.parse resp.body with
    | some (.obj entries) =>
      let parsed := Json.obj entries
      let access := parsed.strOr "access_token"
      if access = [] then
        { error := ascii "token exchange response missing access_token (HTTP " ++
            toDecimal resp.status ++ ascii "): " ++ snippet resp.body }
      else
        { ok := true, accessToken := access, refreshToken := parsed.strOr "refresh_token" }
    | _ =>
      { error := ascii "token exchange returned unparseable JSON (HTTP " ++
          toDecimal resp.status ++ ascii "): " ++ snippet resp.body }

end Choir
