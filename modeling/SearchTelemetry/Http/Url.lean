import SearchTelemetry.Net.SocketAddress
/-!
# Http.Url — where a request goes

The address of a request names the host, the port unless it is the usual one, and the path.  A version 6 address stands in
brackets, all in hexadecimal and without its scope.
-/
namespace SearchTelemetry
namespace Http

/-- The port that an address need not name. -/
def usualPort : UInt16 := 80

/-- The host in an address. -/
def urlHost : IpAddress → List Char
  | .v4 x => x.chars
  | .v6 x => '[' :: x.hexChars ++ [']']

/-- The address of a path on a server. -/
def url (server : SocketAddress) (path : String) : String :=
  let port := if server.port = usualPort then [] else ':' :: Numeral.digits server.port.toNat
  "http://" ++ String.ofList (urlHost server.ip ++ port) ++ path

end Http
end SearchTelemetry
