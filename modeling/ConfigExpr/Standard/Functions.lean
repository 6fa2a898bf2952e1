import ConfigExpr.Standard.ConversionFunctions
import ConfigExpr.Standard.DateFunctions
import ConfigExpr.Standard.DigestFunctions
import ConfigExpr.Standard.TextFunctions

/-!
The standard catalogue of host functions.
-/
namespace ConfigExpr.Standard

def functions : List HostFunction :=
  [md5, sha1, hash, hashHmac, currentTime, date, instantOfPhrase, base64Encode, formatted, implode,
    urlEncode, lowerCase, upperCase, trim, integerValue, stringValue, typeName]

def catalogue : Catalogue :=
  .ofList functions

end ConfigExpr.Standard
