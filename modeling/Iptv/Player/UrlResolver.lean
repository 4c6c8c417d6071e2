import Iptv.Lib.Text

namespace Iptv.Player

def slash : UInt8 := byte '/'

def isAbsolute (uri : Text) : Bool :=
  startsWith uri (text "http://") || startsWith uri (text "https://")

/-- The search starts behind the scheme; without one, `npos + 3` wraps to 2. -/
def resolveRootRelative (baseUrl uri : Text) : Text :=
  let start := match findText baseUrl (text "://") with
    | some scheme => scheme + 3
    | none => 2
  match find baseUrl slash start with
  | none => baseUrl ++ uri
  | some hostEnd => baseUrl.take hostEnd ++ uri

def resolvePathRelative (baseUrl uri : Text) : Text :=
  match findLastOf baseUrl slash with
  | none => uri
  | some lastSlash => baseUrl.take (lastSlash + 1) ++ uri

def resolveUrl (baseUrl uri : Text) : Text :=
  if isAbsolute uri then uri
  else if findLastOf baseUrl slash = none then uri
  else if startsWith uri (text "/") then resolveRootRelative baseUrl uri
  else resolvePathRelative baseUrl uri

example : resolveUrl (text "http://host/live/master.m3u8") (text "v0/a.m3u8") = text "http://host/live/v0/a.m3u8" := by
  decide

example : resolveUrl (text "http://host/live/master.m3u8") (text "/a.m3u8") = text "http://host/a.m3u8" := by
  decide

end Iptv.Player
