import KeyDerivation.KnownAnswer.Basic

/-!
# Tables of known answers

Published requests with the keys they yield, one table for each pseudorandom
function in use.
-/

namespace KeyDerivation

namespace KnownAnswer

/-- Known answers for HMAC-SHA-1, from RFC 6070. The entry with 16777216 rounds is
slow. -/
def hmacSha1Answers : List KnownAnswer :=
  [
    { id := 1
      comment := "c = 1"
      password := utf8 "password"
      salt := utf8 "salt"
      rounds := 1
      keyLength := 20
      expected := "0c60c80f961f0e71f3a9b524af6012062fe037a6"
      slow := false },
    { id := 2
      comment := "c = 2"
      password := utf8 "password"
      salt := utf8 "salt"
      rounds := 2
      keyLength := 20
      expected := "ea6c014dc72d6f8ccd1ed92ace1d41f0d8de8957"
      slow := false },
    { id := 3
      comment := "c = 4096"
      password := utf8 "password"
      salt := utf8 "salt"
      rounds := 4096
      keyLength := 20
      expected := "4b007901b765489abead49d926f721d065a429c1"
      slow := false },
    { id := 4
      comment := "c = 16777216"
      password := utf8 "password"
      salt := utf8 "salt"
      rounds := 16777216
      keyLength := 20
      expected := "eefe3d61cd4da4e4e9945b3d6ba2158c2634e984"
      slow := true },
    { id := 5
      comment := "long password and salt, two blocks"
      password := utf8 "passwordPASSWORDpassword"
      salt := utf8 "saltSALTsaltSALTsaltSALTsaltSALTsalt"
      rounds := 4096
      keyLength := 25
      expected := "3d2eec4fe41c849b80c8d83662c0e44a8b291a964cf2f07038"
      slow := false },
    { id := 6
      comment := "embedded NUL bytes"
      password := utf8 "pass\x00word"
      salt := utf8 "sa\x00lt"
      rounds := 4096
      keyLength := 16
      expected := "56fa6aa75548099dcc37d7f03425e0c3"
      slow := false }
  ]

/-- Known answers for HMAC-SHA-256: the requests of RFC 6070, and two of RFC 7914. -/
def hmacSha256Answers : List KnownAnswer :=
  [
    { id := 1
      comment := "c = 1"
      password := utf8 "password"
      salt := utf8 "salt"
      rounds := 1
      keyLength := 32
      expected := "120fb6cffcf8b32c43e7225256c4f837a86548c92ccc35480805987cb70be17b"
      slow := false },
    { id := 2
      comment := "c = 2"
      password := utf8 "password"
      salt := utf8 "salt"
      rounds := 2
      keyLength := 32
      expected := "ae4d0c95af6b46d32d0adff928f06dd02a303f8ef3c251dfd6e2d85a95474c43"
      slow := false },
    { id := 3
      comment := "c = 4096"
      password := utf8 "password"
      salt := utf8 "salt"
      rounds := 4096
      keyLength := 32
      expected := "c5e478d59288c841aa530db6845c4c8d962893a001ce4e11a4963873aa98134a"
      slow := false },
    { id := 4
      comment := "long password and salt, two blocks"
      password := utf8 "passwordPASSWORDpassword"
      salt := utf8 "saltSALTsaltSALTsaltSALTsaltSALTsalt"
      rounds := 4096
      keyLength := 40
      expected :=
        "348c89dbcbd32b2f32d814b8116e84cf2b17347ebc1800181c4e2a1fb8dd53e1" ++
        "c635518c7dac47e9"
      slow := false },
    { id := 5
      comment := "embedded NUL bytes"
      password := utf8 "pass\x00word"
      salt := utf8 "sa\x00lt"
      rounds := 4096
      keyLength := 16
      expected := "89b69d0516f829893c696226650a8687"
      slow := false },
    { id := 6
      comment := "RFC 7914: passwd / salt, c = 1"
      password := utf8 "passwd"
      salt := utf8 "salt"
      rounds := 1
      keyLength := 64
      expected :=
        "55ac046e56e3089fec1691c22544b605f94185216dde0465e68b9d57c20dacbc" ++
        "49ca9cccf179b645991664b39d77ef317c71b845b1e30bd509112041d3a19783"
      slow := false },
    { id := 7
      comment := "RFC 7914: Password / NaCl, c = 80000"
      password := utf8 "Password"
      salt := utf8 "NaCl"
      rounds := 80000
      keyLength := 64
      expected :=
        "4ddcd8f60b98be21830cee5ef22701f9641a4418d04c0414aeff08876b34ab56" ++
        "a1d425a1225833549adb841b51c9b3176a272bdebba1d078478f62b397f33c8d"
      slow := false }
  ]

/-- Known answers for HMAC-SHA-512: the requests of RFC 6070. -/
def hmacSha512Answers : List KnownAnswer :=
  [
    { id := 1
      comment := "c = 1"
      password := utf8 "password"
      salt := utf8 "salt"
      rounds := 1
      keyLength := 64
      expected :=
        "867f70cf1ade02cff3752599a3a53dc4af34c7a669815ae5d513554e1c8cf252" ++
        "c02d470a285a0501bad999bfe943c08f050235d7d68b1da55e63f73b60a57fce"
      slow := false },
    { id := 2
      comment := "c = 2"
      password := utf8 "password"
      salt := utf8 "salt"
      rounds := 2
      keyLength := 64
      expected :=
        "e1d9c16aa681708a45f5c7c4e215ceb66e011a2e9f0040713f18aefdb866d53c" ++
        "f76cab2868a39b9f7840edce4fef5a82be67335c77a6068e04112754f27ccf4e"
      slow := false },
    { id := 3
      comment := "c = 4096"
      password := utf8 "password"
      salt := utf8 "salt"
      rounds := 4096
      keyLength := 64
      expected :=
        "d197b1b33db0143e018b12f3d1d1479e6cdebdcc97c5c0f87f6902e072f457b5" ++
        "143f30602641b3d55cd335988cb36b84376060ecd532e039b742a239434af2d5"
      slow := false },
    { id := 4
      comment := "long password and salt"
      password := utf8 "passwordPASSWORDpassword"
      salt := utf8 "saltSALTsaltSALTsaltSALTsaltSALTsalt"
      rounds := 4096
      keyLength := 64
      expected :=
        "8c0511f4c6e597c6ac6315d8f0362e225f3c501495ba23b868c005174dc4ee71" ++
        "115b59f9e60cd9532fa33e0f75aefe30225c583a186cd82bd4daea9724a3d3b8"
      slow := false }
  ]

end KnownAnswer

end KeyDerivation
