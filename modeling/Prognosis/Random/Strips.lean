/-! Strips of equal area under the normal and the exponential density, from the one that holds
the tail upwards.
-/

namespace Prognosis.Ziggurat

/-- Bounds below which a normal candidate of a strip is taken at once. -/
def normalBounds : Array UInt64 := #[
  0xef33d8025ef6a, 0x0, 0xc08be98fbc6a8, 0xda354fabd8142, 0xe51f67ec1eeea, 0xeb255e9d3f77e,
  0xeef4b817ecab9, 0xf19470afa44aa, 0xf37ed61ffcb18, 0xf4f469561255c, 0xf61a5e41ba396,
  0xf707a755396a4, 0xf7cb2ec28449a, 0xf86f10c6357d3, 0xf8fa6578325de, 0xf9724c74dd0da,
  0xf9da907dbf509, 0xfa360f581fa74, 0xfa86fde5b4bf8, 0xfacf160d354dc, 0xfb0fb6718b90f,
  0xfb49f8d5374c6, 0xfb7ec2366fe77, 0xfbaece9a1e50e, 0xfbdab9d040bed, 0xfc03060ff6c57,
  0xfc2821037a248, 0xfc4a67ae25bd1, 0xfc6a2977aee31, 0xfc87aa92896a4, 0xfca325e4bde85,
  0xfcbcce902231a, 0xfcd4d12f839c4, 0xfceb54d8fec99, 0xfd007bf1dc930, 0xfd1464dd6c4e6,
  0xfd272a8e2f450, 0xfd38e4ff0c91e, 0xfd49a9990b478, 0xfd598b8920f53, 0xfd689c08e99ec,
  0xfd76ea9c8e832, 0xfd848547b08e8, 0xfd9178bad2c8c, 0xfd9dd07a7add2, 0xfda9970105e8c,
  0xfdb4d5dc02e20, 0xfdbf95c5bfcd0, 0xfdc9debb99a7d, 0xfdd3b8118729d, 0xfddd288342f90,
  0xfde6364369f64, 0xfdeee708d514e, 0xfdf7401a6b42e, 0xfdff46599ed40, 0xfe06fe4bc24f2,
  0xfe0e6c225a258, 0xfe1593c28b84c, 0xfe1c78cbc3f99, 0xfe231e9db1caa, 0xfe29885da1b91,
  0xfe2fb8fb54186, 0xfe35b33558d4a, 0xfe3b799d0002a, 0xfe410e99ead7f, 0xfe46746d47734,
  0xfe4bad34c095c, 0xfe50baed29524, 0xfe559f74ebc78, 0xfe5a5c8e41212, 0xfe5ef3e138689,
  0xfe6366fd91078, 0xfe67b75c6d578, 0xfe6be661e11aa, 0xfe6ff55e5f4f2, 0xfe73e5900a702,
  0xfe77b823e9e39, 0xfe7b6e37070a2, 0xfe7f08d774243, 0xfe8289053f08c, 0xfe85efb35173a,
  0xfe893dc840864, 0xfe8c741f0cebc, 0xfe8f9387d4ef6, 0xfe929cc879b1d, 0xfe95909d388ea,
  0xfe986fb939aa2, 0xfe9b3ac714866, 0xfe9df2694b6d5, 0xfea0973abe67c, 0xfea329cf166a4,
  0xfea5aab32952c, 0xfea81a6d5741a, 0xfeaa797de1cf0, 0xfeacc85f3d920, 0xfeaf07865e63c,
  0xfeb13762fec13, 0xfeb3585fe2a4a, 0xfeb56ae3162b4, 0xfeb76f4e284fa, 0xfeb965fe62014,
  0xfebb4f4cf9d7c, 0xfebd2b8f449d0, 0xfebefb16e2e3e, 0xfec0be31ebde8, 0xfec2752b15a15,
  0xfec42049dafd3, 0xfec5bfd29f196, 0xfec75406ceef4, 0xfec8dd2500cb4, 0xfeca5b6911f12,
  0xfecbcf0c427fe, 0xfecd38454fb15, 0xfece97488c8b3, 0xfecfec47f91b7, 0xfed1377358528,
  0xfed278f844903, 0xfed3b10242f4c, 0xfed4dfbad586e, 0xfed605498c3dd, 0xfed721d414fe8,
  0xfed8357e4a982, 0xfed9406a42cc8, 0xfeda42b85b704, 0xfedb3c8746ab4, 0xfedc2df416652,
  0xfedd171a46e52, 0xfeddf813c8ad3, 0xfeded0f909980, 0xfedfa1e0fd414, 0xfee06ae124bc4,
  0xfee12c0d95a06, 0xfee1e579006e0, 0xfee29734b6524, 0xfee34150ae4bc, 0xfee3e3db89b3c,
  0xfee47ee2982f4, 0xfee51271db086, 0xfee59e9407f41, 0xfee623528b42e, 0xfee6a0b5897f1,
  0xfee716c3e077a, 0xfee7858327b82, 0xfee7ecf7b06ba, 0xfee84d2484ab2, 0xfee8a60b66343,
  0xfee8f7accc851, 0xfee94207e25da, 0xfee9851a829ea, 0xfee9c0e13485c, 0xfee9f557273f4,
  0xfeea22762ccae, 0xfeea4836b42ac, 0xfeea668fc2d71, 0xfeea7d76ed6fa, 0xfeea8ce04fa0a,
  0xfeea94be8333b, 0xfeea950296410, 0xfeea8d9c0075e, 0xfeea7e7897654, 0xfeea678481d24,
  0xfeea48aa29e83, 0xfeea21d22e4da, 0xfee9f2e352024, 0xfee9bbc26af2e, 0xfee97c524f2e4,
  0xfee93473c0a3a, 0xfee8e40557516, 0xfee88ae369c7a, 0xfee828e7f3dfd, 0xfee7bdea7b888,
  0xfee749bff37ff, 0xfee6cc3a9bd5e, 0xfee64529e007e, 0xfee5b45a32888, 0xfee51994e57b6,
  0xfee474a0006cf, 0xfee3c53e12c50, 0xfee30b2e02ad8, 0xfee2462ad8205, 0xfee175eb83c5a,
  0xfee09a22a1447, 0xfedfb27e349cc, 0xfedebea76216c, 0xfeddbe422047e, 0xfedcb0ece39d3,
  0xfedb964042cf4, 0xfeda6dce938c9, 0xfed937237e98d, 0xfed7f1c38a836, 0xfed69d2b9c02b,
  0xfed538d06ae00, 0xfed3c41dea422, 0xfed23e76a2fd8, 0xfed0a732fe644, 0xfecefda07fe34,
  0xfecd4100eb7b8, 0xfecb708956eb4, 0xfec98b61230c1, 0xfec790a0da978, 0xfec57f50f31fe,
  0xfec356686c962, 0xfec114cb4b335, 0xfebeb948e6fd0, 0xfebc429a0b692, 0xfeb9af5ee0cdc,
  0xfeb6fe1c98542, 0xfeb42d3ad1f9e, 0xfeb13b00b2d4b, 0xfeae2591a02e9, 0xfeaaeae992257,
  0xfea788d8ee326, 0xfea3fcffd73e5, 0xfea044c8dd9f6, 0xfe9c5d62f563b, 0xfe9843ba947a4,
  0xfe93f471d4728, 0xfe8f6bd76c5d6, 0xfe8aa5dc4e8e6, 0xfe859e07ab1ea, 0xfe804f690a940,
  0xfe7ab488233c0, 0xfe74c751f6aa5, 0xfe6e8102aa202, 0xfe67da0b6abd8, 0xfe60c9f38307e,
  0xfe5947338f742, 0xfe51470977280, 0xfe48bd436f458, 0xfe3f9bffd1e37, 0xfe35d35eeb19c,
  0xfe2b5122fe4fe, 0xfe20003995557, 0xfe13c82788314, 0xfe068c4ee67b0, 0xfdf82b02b71aa,
  0xfde87c57efeaa, 0xfdd7509c63bfd, 0xfdc46e529bf13, 0xfdaf8f82e0282, 0xfd985e1b2ba75,
  0xfd7e6ef48cf04, 0xfd613adbd650b, 0xfd40149e2f012, 0xfd1a1a7b4c7ac, 0xfcee204761f9e,
  0xfcba8d85e11b2, 0xfc7d26ecd2d22, 0xfc32b2f1e22ed, 0xfbd6581c0b83a, 0xfb606c4005434,
  0xfac40582a2874, 0xf9e971e014598, 0xf89fa48a41dfc, 0xf66c5f7f0302c, 0xf1a5a4b331c4a
]

/-- Widths of the strips under the normal density, as patterns of bits. -/
def normalWidths : Array UInt64 := #[
  0x3ccf493b7815d979, 0x3c8b8d0be3fdf6c6, 0x3c9250af3c2c5bb4, 0x3c957cb938443b61,
  0x3c9801fce82fa70c, 0x3c9a230c2e4cd0bc, 0x3c9c004d2f3861f7, 0x3c9dac2f5a747274,
  0x3c9f32482d4cd5c3, 0x3ca04d32278ebbad, 0x3ca0f5053b025d43, 0x3ca192a697413677,
  0x3ca227a28f7a1af5, 0x3ca2b52e3863d880, 0x3ca33c3fc05791f5, 0x3ca3bd9ec1a2b12f,
  0x3ca439ef8dff9b55, 0x3ca4b1bb363dfea7, 0x3ca52575621ad374, 0x3ca59580a707ce96,
  0x3ca60231cfd97eea, 0x3ca66bd261a37c3d, 0x3ca6d2a292000570, 0x3ca736dad346f8a6,
  0x3ca798ad10b32a77, 0x3ca7f845ad46f543, 0x3ca855cc53430a77, 0x3ca8b1649e7b769a,
  0x3ca90b2ea94ecf98, 0x3ca96347822c1eea, 0x3ca9b9c98e38c546, 0x3caa0eccdca4a72c,
  0x3caa62676d77cd59, 0x3caab4ad6e101630, 0x3cab05b16d136c9c, 0x3cab558487427a29,
  0x3caba4368e529f3a, 0x3cabf1d62abf8232, 0x3cac3e70f9594ef3, 0x3cac8a13a5323b61,
  0x3cacd4c9fe72268b, 0x3cad1e9f0e80b748, 0x3cad679d29e41f10, 0x3cadafce0023b8c3,
  0x3cadf73aa9f17653, 0x3cae3debb5d2edfe, 0x3cae83e9337a6f00, 0x3caec93abdf982ce,
  0x3caf0de784f06226, 0x3caf51f654d8f688, 0x3caf956d9e87d7ae, 0x3cafd8537dfa2eac,
  0x3cb00d56e04234ec, 0x3cb02e40f5398f9a, 0x3cb04eea9e16a5fc, 0x3cb06f565b72a010,
  0x3cb08f869071f40b, 0x3cb0af7d84bc6113, 0x3cb0cf3d664bcc7f, 0x3cb0eec84b16086b,
  0x3cb10e20329515ee, 0x3cb12d4707310fbe, 0x3cb14c3e9f8e9141, 0x3cb16b08bfc4201e,
  0x3cb189a71a78da34, 0x3cb1a81b51ee6d88, 0x3cb1c666f8f82acb, 0x3cb1e48b93e0d42e,
  0x3cb2028a9940a09f, 0x3cb2206572c4c6e9, 0x3cb23e1d7de9c31f, 0x3cb25bb40ca96bfb,
  0x3cb2792a661dd37f, 0x3cb29681c719d71b, 0x3cb2b3bb62b82eda, 0x3cb2d0d862e1b853,
  0x3cb2edd9e8cba98e, 0x3cb30ac10d6e48d7, 0x3cb3278ee1f4b930, 0x3cb3444470265ea1,
  0x3cb360e2baca52d5, 0x3cb37d6abe05586a, 0x3cb399dd6fb2b264, 0x3cb3b63bbfb83d03,
  0x3cb3d28698561de0, 0x3cb3eebede725a83, 0x3cb40ae571e09e74, 0x3cb426fb2da6745d,
  0x3cb44300e83c30a4, 0x3cb45ef773cac75d, 0x3cb47adf9e66c336, 0x3cb496ba32488f2f,
  0x3cb4b287f602415d, 0x3cb4ce49acb311dc, 0x3cb4ea001638a605, 0x3cb505abef5e5562,
  0x3cb5214df20a8b5a, 0x3cb53ce6d56a664f, 0x3cb558774e1bb2c8, 0x3cb574000e555f78,
  0x3cb58f81c60e8514, 0x3cb5aafd23241b59, 0x3cb5c672d17d733d, 0x3cb5e1e37b2f8cd3,
  0x3cb5fd4fc89f5e38, 0x3cb618b860a31fc3, 0x3cb6341de8a2b0a2, 0x3cb64f8104b7260b,
  0x3cb66ae257c99672, 0x3cb6864283b13137, 0x3cb6a1a22950b2b1, 0x3cb6bd01e8b343bb,
  0x3cb6d8626128d352, 0x3cb6f3c43161f854, 0x3cb70f27f78b68eb, 0x3cb72a8e516914c6,
  0x3cb745f7dc70eedc, 0x3cb7616535e5731f, 0x3cb77cd6faeff449, 0x3cb7984dc8babd93,
  0x3cb7b3ca3c8b1409, 0x3cb7cf4cf3db22fb, 0x3cb7ead68c73dee7, 0x3cb80667a486ea1f,
  0x3cb82200dac88676, 0x3cb83da2ce899f15, 0x3cb8594e1fd1f5bd, 0x3cb875036f7a7ec5,
  0x3cb890c35f47f72d, 0x3cb8ac8e9205c043, 0x3cb8c865aba10c9c, 0x3cb8e44951446a27,
  0x3cb9003a2973b58f, 0x3cb91c38dc288347, 0x3cb9384612ef0afc, 0x3cb954627903a28a,
  0x3cb9708ebb70d5ee, 0x3cb98ccb892e2a31, 0x3cb9a919933f99bf, 0x3cb9c5798cd5d92c,
  0x3cb9e1ec2b6f7411, 0x3cb9fe7226fad24a, 0x3cba1b0c39f93692, 0x3cba37bb21a2c85b,
  0x3cba547f9e0bbb88, 0x3cba715a724aa9a4, 0x3cba8e4c64a0313d, 0x3cbaab563e9ff108,
  0x3cbac878cd5af5ce, 0x3cbae5b4e18bb336, 0x3cbb030b4fc3a11a, 0x3cbb207cf09a985b,
  0x3cbb3e0aa0e00c00, 0x3cbb5bb541ce3d03, 0x3cbb797db93f8927, 0x3cbb9764f1e5f73c,
  0x3cbbb56bdb85256e, 0x3cbbd3936b2ec0a2, 0x3cbbf1dc9b81ae83, 0x3cbc10486cec16a0,
  0x3cbc2ed7e5f07a2d, 0x3cbc4d8c136e0d1c, 0x3cbc6c6608ec8705, 0x3cbc8b66e0eba617,
  0x3cbcaa8fbd36a2ab, 0x3cbcc9e1c73bd690, 0x3cbce95e3068e037, 0x3cbd0906328b8f6e,
  0x3cbd28db1037ef20, 0x3cbd48de1533c647, 0x3cbd691096e7f123, 0x3cbd8973f4d7fba5,
  0x3cbdaa0999206e70, 0x3cbdcad2f8fc490e, 0x3cbdebd195522e37, 0x3cbe0d06fb49d21c,
  0x3cbe2e74c4ea46f6, 0x3cbe501c99c1d188, 0x3cbe72002f97fe25, 0x3cbe94214b2abf0a,
  0x3cbeb681c0f76f08, 0x3cbed9237610a73a, 0x3cbefc086101eca9, 0x3cbf1f328ac25321,
  0x3cbf42a40fb74d6d, 0x3cbf665f20c90168, 0x3cbf8a6604899782, 0x3cbfaebb187122bf,
  0x3cbfd360d22fe785, 0x3cbff859c118f60b, 0x3cc00ed447d3a075, 0x3cc021a8028fc947,
  0x3cc034a983a902ab, 0x3cc047da4e3ef5c7, 0x3cc05b3bf6adb37e, 0x3cc06ed023a72668,
  0x3cc082988f632e17, 0x3cc0969708e8a254, 0x3cc0aacd7571c0c4, 0x3cc0bf3dd1eed448,
  0x3cc0d3ea34aa3d30, 0x3cc0e8d4cf116593, 0x3cc0fdffefa69fb6, 0x3cc1136e04207041,
  0x3cc129219bbb5d35, 0x3cc13f1d69c4096d, 0x3cc1556448602e3b, 0x3cc16bf93b9deef3,
  0x3cc182df74d21261, 0x3cc19a1a564eebac, 0x3cc1b1ad777f2f8e, 0x3cc1c99ca971a694,
  0x3cc1e1ebfbe4ae39, 0x3cc1fa9fc2e2d901, 0x3cc213bc9d04cc81, 0x3cc22d477a6fd3ee,
  0x3cc24745a4ac9c24, 0x3cc261bcc77658e0, 0x3cc27cb2faa8592e, 0x3cc2982ecd770e78,
  0x3cc2b437532a0a52, 0x3cc2d0d43196db97, 0x3cc2ee0db1a978f5, 0x3cc30becd256aeee,
  0x3cc32a7b5e68a4a3, 0x3cc349c405ae12a3, 0x3cc369d27a33a840, 0x3cc38ab39256410a,
  0x3cc3ac7570ae88fa, 0x3cc3cf27b31704a6, 0x3cc3f2dbaa60f475, 0x3cc417a49cb9e5da,
  0x3cc43d9815545e94, 0x3cc464ce44a73a15, 0x3cc48d62759c43bc, 0x3cc4b7739d6b5a27,
  0x3cc4e3250dcd8902, 0x3cc5109f53e9ac41, 0x3cc54011523a7e42, 0x3cc571b1a94ae41b,
  0x3cc5a5c08b718dd9, 0x3cc5dc8a243ad0fe, 0x3cc61669cf861e4c, 0x3cc653ce7b006aea,
  0x3cc69540be9fe5c3, 0x3cc6db6b8d09e232, 0x3cc72728f05f7a34, 0x3cc7799556090673,
  0x3cc7d42df4d6ce8c, 0x3cc839030529f234, 0x3cc8ab0fbfaa7c14, 0x3cc92ee0946f4496,
  0x3cc9cbee014057ab, 0x3cca8fdc7894775a, 0x3ccb981f3878fdb1, 0x3ccd3bb48209ad33
]

/-- Heights of the strips under the normal density, as patterns of bits. -/
def normalHeights : Array UInt64 := #[
  0x3ff0000000000000, 0x3fef446ac979f087, 0x3feeb7545b6ca915, 0x3fee3f11e027f077,
  0x3fedd36fa704de95, 0x3fed70920657bcf2, 0x3fed144978a119dc, 0x3fecbd33a8a72deb,
  0x3fec6a5ecea9787f, 0x3fec1b1cd9eebaea, 0x3febceeb4ee1dc82, 0x3feb85653a8ff552,
  0x3feb3e3a8234dd10, 0x3feaf92a3f6ce8a2, 0x3feab5fef17a2504, 0x3fea748bd550c9e1,
  0x3fea34aafdf5af0f, 0x3fe9f63bee651fd8, 0x3fe9b9228d240681, 0x3fe97d4657617ac1,
  0x3fe94291c21b7a47, 0x3fe908f1bd31714f, 0x3fe8d0554fe60aa8, 0x3fe898ad48badf02,
  0x3fe861ebfc37bcac, 0x3fe82c050f56cf6e, 0x3fe7f6ed4b20e2cb, 0x3fe7c29a779c6858,
  0x3fe78f033ca0b0d5, 0x3fe75c1f0770d856, 0x3fe729e5f43f6d12, 0x3fe6f850baea7aee,
  0x3fe6c7589e635a89, 0x3fe696f75e513b2a, 0x3fe667272a92e323, 0x3fe637e298550c18,
  0x3fe6092498802665, 0x3fe5dae86f4aff6a, 0x3fe5ad29acc85c89, 0x3fe57fe4264c8d8f,
  0x3fe55313f08d9e46, 0x3fe526b55a656cd5, 0x3fe4fac4e820b667, 0x3fe4cf3f4f494ec0,
  0x3fe4a42172dc5278, 0x3fe479685fdf5012, 0x3fe44f114a493679, 0x3fe425198a355fe3,
  0x3fe3fb7e99585b82, 0x3fe3d23e10af31a3, 0x3fe3a955a662cd0e, 0x3fe380c32bda00d5,
  0x3fe358848bf550e9, 0x3fe33097c9703a35, 0x3fe308fafd6438ef, 0x3fe2e1ac55ea3bee,
  0x3fe2baaa14d7954a, 0x3fe293f28e93cd15, 0x3fe26d84290504ed, 0x3fe2475d5a90db84,
  0x3fe2217ca92ff7f2, 0x3fe1fbe0a9929620, 0x3fe1d687fe549969, 0x3fe1b171573fd111,
  0x3fe18c9b709b3c50, 0x3fe16805128639da, 0x3fe143ad105ea99c, 0x3fe11f9248311f38,
  0x3fe0fbb3a2325913, 0x3fe0d810104142a0, 0x3fe0b4a68d70d9ae, 0x3fe091761d995d81,
  0x3fe06e7dccf03c36, 0x3fe04bbcafa63f2e, 0x3fe02931e18b822a, 0x3fe006dc85b8cac4,
  0x3fdfc9778c7bbda1, 0x3fdf859da7a900ca, 0x3fdf4229cb2f7af3, 0x3fdeff1a717e8f95,
  0x3fdebc6e20bd1f54, 0x3fde7a236a4ec3c5, 0x3fde3838ea5f9b85, 0x3fddf6ad47763a09,
  0x3fddb57f320b56b1, 0x3fdd74ad6426de33, 0x3fdd3436a1021080, 0x3fdcf419b4ae5b6d,
  0x3fdcb45573c0a848, 0x3fdc74e8bb00d7c7, 0x3fdc35d26f1d2cb8, 0x3fdbf7117c616a17,
  0x3fdbb8a4d6716d91, 0x3fdb7a8b7807131b, 0x3fdb3cc462b331ca, 0x3fdaff4e9ea18552,
  0x3fdac2293a5f5a9e, 0x3fda85534aa4d880, 0x3fda48cbea20c04d, 0x3fda0c923946843e,
  0x3fd9d0a55e1e93df, 0x3fd995048418c0c6, 0x3fd959aedbe09f93, 0x3fd91ea39b33cb17,
  0x3fd8e3e1fcb9f115, 0x3fd8a9693fde9188, 0x3fd86f38a8ac5ab6, 0x3fd8354f7faa0dd9,
  0x3fd7fbad11b8d911, 0x3fd7c250aff414b0, 0x3fd78939af9252eb, 0x3fd7506769c7b1ed,
  0x3fd717d93ba9614c, 0x3fd6df8e86124caa, 0x3fd6a786ad88de21, 0x3fd66fc11a25cbe2,
  0x3fd6383d377be515, 0x3fd600fa7480d2c8, 0x3fd5c9f84376c244, 0x3fd5933619d6eebe,
  0x3fd55cb3703d0100, 0x3fd5266fc2533bed, 0x3fd4f06a8ebf6d92, 0x3fd4baa357109ca2,
  0x3fd485199fad6ad4, 0x3fd44fccefc324fe, 0x3fd41abcd1357a19, 0x3fd3e5e8d08ed2db,
  0x3fd3b1507cf143ae, 0x3fd37cf368081379, 0x3fd348d125f9d19e, 0x3fd314e94d5af62f,
  0x3fd2e13b77210766, 0x3fd2adc73e963fdd, 0x3fd27a8c414db11e, 0x3fd2478a1f17de89,
  0x3fd214c079f7cc9e, 0x3fd1e22ef6188116, 0x3fd1afd539c2f050, 0x3fd17db2ed5454e8,
  0x3fd14bc7bb34ee67, 0x3fd11a134fcf2423, 0x3fd0e895598709c4, 0x3fd0b74d88b242da,
  0x3fd0863b8f904336, 0x3fd0555f2242e9d9, 0x3fd024b7f6c7747e, 0x3fcfe88b89df93c5,
  0x3fcf88108cb83235, 0x3fcf27fe6ce998d2, 0x3fcec854a4c99c44, 0x3fce6912b2283cdd,
  0x3fce0a3816457184, 0x3fcdabc455c7900a, 0x3fcd4db6f8b2514f, 0x3fccf00f8a5e6fcc,
  0x3fcc92cd9971df53, 0x3fcc35f0b7d89d47, 0x3fcbd9787abe18a1, 0x3fcb7d647a8731aa,
  0x3fcb21b452ccd13a, 0x3fcac667a2571807, 0x3fca6b7e0b19267e, 0x3fca10f7322d7e3d,
  0x3fc9b6d2bfd2fe5a, 0x3fc95d105f6a7c27, 0x3fc903afbf74fa69, 0x3fc8aab09192815b,
  0x3fc852128a819a38, 0x3fc7f9d5621f7175, 0x3fc7a1f8d368a323, 0x3fc74a7c9c7ab5a6,
  0x3fc6f3607e964716, 0x3fc69ca43e21f25c, 0x3fc64647a2adf19c, 0x3fc5f04a76f883f9,
  0x3fc59aac88f31d6c, 0x3fc5456da9c86835, 0x3fc4f08dade31fc1, 0x3fc49c0c6cf5ce2d,
  0x3fc447e9c20375d5, 0x3fc3f4258b6931ae, 0x3fc3a0bfaae8d7ee, 0x3fc34db805b4ab88,
  0x3fc2fb0e847c2a65, 0x3fc2a8c3137a071a, 0x3fc256d5a2835eb7, 0x3fc2054625183c34,
  0x3fc1b41492757d42, 0x3fc16340e5a82d63, 0x3fc112cb1da26eb9, 0x3fc0c2b33d5209ba,
  0x3fc072f94bb8bf85, 0x3fc0239d54067d2a, 0x3fbfa93ecb6b222c, 0x3fbf0bff29520e1c,
  0x3fbe6f7bf29aa54b, 0x3fbdd3b56176e88f, 0x3fbd38abb9bd91e5, 0x3fbc9e5f493b740a,
  0x3fbc04d0680b1015, 0x3fbb6bff78f2e233, 0x3fbad3ece9caf633, 0x3fba3c9933ea6286,
  0x3fb9a604dc9d5b19, 0x3fb9103075a4a0ab, 0x3fb87b1c9dbf2852, 0x3fb7e6ca013eefd6,
  0x3fb753395aaa1176, 0x3fb6c06b73694a4c, 0x3fb62e6124854d18, 0x3fb59d1b577466a4,
  0x3fb50c9b06fa2bae, 0x3fb47ce1401b2213, 0x3fb3edef23269a86, 0x3fb35fc5e4d93e70,
  0x3fb2d266cf9b3111, 0x3fb245d344dd0d91, 0x3fb1ba0cbe97897d, 0x3fb12f14d0f2179d,
  0x3fb0a4ed2c159625, 0x3fb01b979e30e497, 0x3faf262c2b6c6e35, 0x3fae16d547b25181,
  0x3fad092efeadf162, 0x3fabfd3e0f282a2c, 0x3faaf30790385f70, 0x3fa9ea90f9295563,
  0x3fa8e3e02a68b5ab, 0x3fa7defb77af271e, 0x3fa6dbe9b398d064, 0x3fa5dab23cf2add4,
  0x3fa4db5d0e11275d, 0x3fa3ddf2ce98eecb, 0x3fa2e27ce83df497, 0x3fa1e9059f1f6abc,
  0x3fa0f1982e968011, 0x3f9ff881d718a5c4, 0x3f9e121adb828c75, 0x3f9c301983cd091a,
  0x3f9a529f4e22ebf8, 0x3f9879d1b600c10a, 0x3f96a5daf40bbf82, 0x3f94d6eaf2fbb064,
  0x3f930d388dab5e13, 0x3f91490334603012, 0x3f8f152a4f72dd49, 0x3f8ba48d274f8fac,
  0x3f8841040d8da478, 0x3f84eb96421acfe0, 0x3f81a59229952f92, 0x3f7ce160f8ec6837,
  0x3f769ea8d90cb85d, 0x3f708a1f03b0b1fd, 0x3f655f9f43c1b067, 0x3f54a605b6b9f70f
]

/-- Bounds below which an exponential candidate of a strip is taken at once. -/
def exponentialBounds : Array UInt64 := #[
  0x1c5214272497c6, 0x0, 0x137d5bd79c317e, 0x186ef58e3f3c10, 0x1a9bb7320eb0ae,
  0x1bd127f719447c, 0x1c951d0f88651a, 0x1d1bfe2d5c3972, 0x1d7e5bd56b18b2, 0x1dc934dd172c70,
  0x1e0409dfac9dc8, 0x1e337b71d47836, 0x1e5a8b177cb7a2, 0x1e7b42096f046c, 0x1e970daf08ae3e,
  0x1eaef5b14ef09e, 0x1ec3bd07b46556, 0x1ed5f6f08799ce, 0x1ee614ae6e5688, 0x1ef46eca361cd0,
  0x1f014b76ddd4a4, 0x1f0ce313a796b6, 0x1f176369f1f77a, 0x1f20f20c452570, 0x1f29ae1951a874,
  0x1f31b18fb95532, 0x1f39125157c106, 0x1f3fe2eb6e694c, 0x1f463332d788fa, 0x1f4c10bf1d3a0e,
  0x1f51874c5c3322, 0x1f56a109c3ecc0, 0x1f5b66d9099996, 0x1f5fe08210d08c, 0x1f6414dd445772,
  0x1f6809f6859678, 0x1f6bc52a2b02e6, 0x1f6f4b3d32e4f4, 0x1f72a07190f13a, 0x1f75c8974d09d6,
  0x1f78c71b045cc0, 0x1f7b9f12413ff4, 0x1f7e5346079f8a, 0x1f80e63be21138, 0x1f835a3dad9162,
  0x1f85b16056b912, 0x1f87ed89b24262, 0x1f8a10759374fa, 0x1f8c1bba3d39ac, 0x1f8e10cc45d04a,
  0x1f8ff102013e16, 0x1f91bd968358e0, 0x1f9377ac47afd8, 0x1f95204f8b64da, 0x1f96b878633892,
  0x1f98410c968892, 0x1f99bae146ba80, 0x1f9b26bc697f00, 0x1f9c85561b717a, 0x1f9dd759cfd802,
  0x1f9f1d6761a1ce, 0x1fa058140936c0, 0x1fa187eb3a3338, 0x1fa2ad6f6bc4fc, 0x1fa3c91ace0682,
  0x1fa4db5fee6aa2, 0x1fa5e4aa4d097c, 0x1fa6e55ee46782, 0x1fa7dddca51ec4, 0x1fa8ce7ce6a874,
  0x1fa9b793ce5fee, 0x1faa9970adb858, 0x1fab745e588232, 0x1fac48a3740584, 0x1fad1682bf9fe8,
  0x1fadde3b5782c0, 0x1faea008f21d6c, 0x1faf5c2418b07e, 0x1fb012c25b7a12, 0x1fb0c41681dff4,
  0x1fb17050b6f1fa, 0x1fb2179eb2963a, 0x1fb2ba2bdfa84a, 0x1fb358217f4e18, 0x1fb3f1a6c9be0c,
  0x1fb486e10cacd6, 0x1fb517f3c793fc, 0x1fb5a500c5fdaa, 0x1fb62e2837fe58, 0x1fb6b388c9010a,
  0x1fb7353fb50798, 0x1fb7b368dc7da8, 0x1fb82e1ed6ba08, 0x1fb8a57b0347f6, 0x1fb919959a0f74,
  0x1fb98a85ba7204, 0x1fb9f861796f26, 0x1fba633deee286, 0x1fbacb2f41ec16, 0x1fbb3048b49144,
  0x1fbb929caea4e2, 0x1fbbf23cc8029e, 0x1fbc4f39d22994, 0x1fbca9a3e140d4, 0x1fbd018a548f9e,
  0x1fbd56fbde729c, 0x1fbdaa068bd66a, 0x1fbdfab7cb3f40, 0x1fbe491c7364de, 0x1fbe9540c9695e,
  0x1fbedf3086b128, 0x1fbf26f6de6174, 0x1fbf6c9e828ae2, 0x1fbfb031a904c4, 0x1fbff1ba0ffdb0,
  0x1fc03141024588, 0x1fc06ecf5b54b2, 0x1fc0aa6d8b1426, 0x1fc0e42399698a, 0x1fc11bf9298a64,
  0x1fc151f57d1942, 0x1fc1861f770f4a, 0x1fc1b87d9e74b4, 0x1fc1e91620ea42, 0x1fc217eed505de,
  0x1fc2450d3c83fe, 0x1fc27076864fc2, 0x1fc29a2f90630e, 0x1fc2c23ce98046, 0x1fc2e8a2d2c6b4,
  0x1fc30d654122ec, 0x1fc33087de9c0e, 0x1fc3520e0b7ec6, 0x1fc371fadf66f8, 0x1fc390512a2886,
  0x1fc3ad137497fa, 0x1fc3c844013348, 0x1fc3e1e4ccab40, 0x1fc3f9f78e4da8, 0x1fc4107db85060,
  0x1fc4257877fd68, 0x1fc438e8b5bfc6, 0x1fc44acf15112a, 0x1fc45b2bf447e8, 0x1fc469ff6c4504,
  0x1fc477495001b2, 0x1fc483092bfbb8, 0x1fc48d3e457ff6, 0x1fc495e799d21a, 0x1fc49d03dd30b0,
  0x1fc4a29179b432, 0x1fc4a68e8e07fc, 0x1fc4a8f8ebfb8c, 0x1fc4a9ce16ea9e, 0x1fc4a90b41fa34,
  0x1fc4a6ad4e28a0, 0x1fc4a2b0c82e74, 0x1fc49d11e62de2, 0x1fc495cc852df4, 0x1fc48cdc265ec0,
  0x1fc4823bec237a, 0x1fc475e696dee6, 0x1fc467d6817e82, 0x1fc458059dc036, 0x1fc4466d702e20,
  0x1fc433070bcb98, 0x1fc41dcb0d6e0e, 0x1fc406b196bbf6, 0x1fc3edb248cb62, 0x1fc3d2c43e593c,
  0x1fc3b5de0591b4, 0x1fc396f599614c, 0x1fc376005a4592, 0x1fc352f3069370, 0x1fc32dc1b22818,
  0x1fc3065fbd7888, 0x1fc2dcbfcbf262, 0x1fc2b0d3b99f9e, 0x1fc2828c8ffcf0, 0x1fc251da79f164,
  0x1fc21eacb6d39e, 0x1fc1e8f18c6756, 0x1fc1b09637bb3c, 0x1fc17586dccd10, 0x1fc137ae74d6b6,
  0x1fc0f6f6bb2414, 0x1fc0b348184da4, 0x1fc06c898baff0, 0x1fc022a092f364, 0x1fbfd5710f72b8,
  0x1fbf84dd29488e, 0x1fbf30c52fc60a, 0x1fbed907770cc6, 0x1fbe7d80327dda, 0x1fbe1e094ba614,
  0x1fbdba7a354408, 0x1fbd52a7b9f826, 0x1fbce663c6201a, 0x1fbc757d2c4de4, 0x1fbbffbf63b7aa,
  0x1fbb84f23fe6a2, 0x1fbb04d9a0d18c, 0x1fba7f351a70ac, 0x1fb9f3bf92b618, 0x1fb9622ed4abfc,
  0x1fb8ca33174a16, 0x1fb82b76765b54, 0x1fb7859c5b895c, 0x1fb6d840d55594, 0x1fb622f7d96942,
  0x1fb5654c6f37e0, 0x1fb49ebfbf69d2, 0x1fb3cec803e746, 0x1fb2f4cf539c3e, 0x1fb21032442852,
  0x1fb1203e5a9604, 0x1fb0243042e1c2, 0x1faf1b31c479a6, 0x1fae045767e104, 0x1facde9dbf2d72,
  0x1faba8e640060a, 0x1faa61f399ff28, 0x1fa908656f66a2, 0x1fa79ab3508d3c, 0x1fa61726d1f214,
  0x1fa47bd48bea00, 0x1fa2c693c5c094, 0x1fa0f4f47df314, 0x1f9f04336bbe0a, 0x1f9cf12b79f9bc,
  0x1f9ab84415abc4, 0x1f98555b782fb8, 0x1f95c3abd03f78, 0x1f92fda9cef1f2, 0x1f8ffcda9ae41c,
  0x1f8cb99e7385f8, 0x1f892aec479606, 0x1f8545f904db8e, 0x1f80fdc336039a, 0x1f7c427839e926,
  0x1f7700a3582acc, 0x1f71200f1a241c, 0x1f6a8234b7352a, 0x1f630000a8e266, 0x1f5a66904fe3c4,
  0x1f50724ece1172, 0x1f44c7665c6fda, 0x1f36e5a38a59a2, 0x1f26143450340a, 0x1f113e047b0414,
  0x1ef6aefa57cbe6, 0x1ed38ca188151e, 0x1ea2a61e122db0, 0x1e5961c78b267c, 0x1dddf62bac0bb0,
  0x1cdb4dd9e4e8c0
]

/-- Widths of the strips under the exponential density, as patterns of bits. -/
def exponentialWidths : Array UInt64 := #[
  0x3cd164ec94bf5dc1, 0x3c60589d8b5d4119, 0x3c6ad6b2495b4d2b, 0x3c719335a95b8dba,
  0x3c7522e6e54a2a73, 0x3c785090fbc27a80, 0x3c7b38d1ef79b7cc, 0x3c7decd8b76dbd98,
  0x3c803bf049c65c3c, 0x3c8170db24d6f670, 0x3c82980290da2633, 0x3c83b388fe3d6eca,
  0x3c84c515c60bfe21, 0x3c85cdf89d024ac3, 0x3c86cf40f0a72bbd, 0x3c87c9cdda17d019,
  0x3c88be5954d3606f, 0x3c89ad80552237d2, 0x3c8a97c8be5d5203, 0x3c8b7da5dddda3c4,
  0x3c8c5f7bd78c3f89, 0x3c8d3da24df17c36, 0x3c8e186678f1735a, 0x3c8ef00ccf5f4faa,
  0x3c8fc4d25d683209, 0x3c904b76ed6a7558, 0x3c90b348479b80fc, 0x3c9119f38749f5af,
  0x3c917f8ceb4bdfa0, 0x3c91e426e93e49e7, 0x3c9247d26538ff2e, 0x3c92aa9ee123680b,
  0x3c930c9aa526da4b, 0x3c936dd2e26d8202, 0x3c93ce53d12162a0, 0x3c942e28ca706748,
  0x3c948d5c5f35e712, 0x3c94ebf86bcd0b93, 0x3c954a0629786f4d, 0x3c95a78e3db8befd,
  0x3c960498c7dd2ecf, 0x3c96612d6d0c68e0, 0x3c96bd5362faa944, 0x3c971911797990bb,
  0x3c97746e23077973, 0x3c97cf6f7c7e8172, 0x3c982a1b53fed599, 0x3c9884772f2be1ec,
  0x3c98de8850d0c52a, 0x3c993853bdfda244, 0x3c9991de42ad1338, 0x3c99eb2c75ff03bf,
  0x3c9a4442be14884a, 0x3c9a9d255396d261, 0x3c9af5d844f224c9, 0x3c9b4e5f794c979b,
  0x3c9ba6beb33f8f89, 0x3c9bfef99359fe99, 0x3c9c57139a70d29f, 0x3c9caf102bc25adb,
  0x3c9d06f28ef0e6fb, 0x3c9d5ebdf1d86b8d, 0x3c9db6756a429057, 0x3c9e0e1bf77c31fe,
  0x3c9e65b483cf1044, 0x3c9ebd41e5e21b62, 0x3c9f14c6e202949f, 0x3c9f6c462b57feb5,
  0x3c9fc3c26504a9a1, 0x3ca00d9f119a3cd9, 0x3ca0395df60db162, 0x3ca0651f1c7276f8,
  0x3ca090e3bb4b0072, 0x3ca0bcad03710137, 0x3ca0e87c207a2f66, 0x3ca114523917ac15,
  0x3ca140306f707dbe, 0x3ca16c17e1777ffb, 0x3ca19809a93d2396, 0x3ca1c406dd3d5283,
  0x3ca1f01090a9c4e2, 0x3ca21c27d3b10e05, 0x3ca2484db3c2a329, 0x3ca274833bd0189f,
  0x3ca2a0c9748bcdaa, 0x3ca2cd2164a53b5d, 0x3ca2f98c11031721, 0x3ca3260a7cfb7611,
  0x3ca3529daa8a1ba1, 0x3ca37f469a851af0, 0x3ca3ac064ccfeffc, 0x3ca3d8ddc08d336d,
  0x3ca405cdf44f09c4, 0x3ca432d7e6466cd0, 0x3ca45ffc94716ca7, 0x3ca48d3cfcc883c4,
  0x3ca4ba9a1d6b18a4, 0x3ca4e814f4cb45ea, 0x3ca515ae81d900fb, 0x3ca54367c42cb5f8,
  0x3ca57141bc316f27, 0x3ca59f3d6b4e9cf9, 0x3ca5cd5bd4119335, 0x3ca5fb9dfa56cf26,
  0x3ca62a04e3731a2e, 0x3ca65891965c9b8c, 0x3ca687451bd3ebee, 0x3ca6b6207e8d3cdf,
  0x3ca6e524cb59a608, 0x3ca714531150a9fb, 0x3ca743ac61fa041c, 0x3ca77331d177d130,
  0x3ca7a2e476b1240a, 0x3ca7d2c56b7d17f7, 0x3ca802d5ccce7277, 0x3ca83316badfe62a,
  0x3ca86389596108e7, 0x3ca8942ecfa40f54, 0x3ca8c50848cc6094, 0x3ca8f616f3fe1513,
  0x3ca9275c048e73e1, 0x3ca958d8b235828a, 0x3ca98a8e3940bbf4, 0x3ca9bc7ddac7035d,
  0x3ca9eea8dcdde951, 0x3caa21108ad0592d, 0x3caa53b63556c690, 0x3caa869b32d0f30f,
  0x3caab9c0df81657a, 0x3caaed289dcaacff, 0x3cab20d3d66e8bb5, 0x3cab54c3f8cf2542,
  0x3cab88fa7b324fb6, 0x3cabbd78db072610, 0x3cabf2409d2dfd85, 0x3cac27534e42e02d,
  0x3cac5cb282eab1a4, 0x3cac925fd82323fb, 0x3cacc85cf395a56c, 0x3cacfeab83ed7180,
  0x3cad354d4130f2ad, 0x3cad6c43ed1ea3fe, 0x3cada391538da50a, 0x3caddb374ad2357f,
  0x3cae1337b426509b, 0x3cae4b947c16a452, 0x3cae844f9af4237f, 0x3caebd6b154a7678,
  0x3caef6e8fc5b9168, 0x3caf30cb6ea0bc7f, 0x3caf6b1498515ed0, 0x3cafa5c6b3efe1e5,
  0x3cafe0e40add09d8, 0x3cb00e377af911d4, 0x3cb02c34ef11391b, 0x3cb04a6b9e9224a3,
  0x3cb068dccf1126db, 0x3cb08789cf3aad0f, 0x3cb0a673f733c819, 0x3cb0c59ca900946f,
  0x3cb0e50550efcfb7, 0x3cb104af660befce, 0x3cb1249c6a92154a, 0x3cb144cdec6f3a2b,
  0x3cb1654585c404c1, 0x3cb18604dd6fae9e, 0x3cb1a70da7a27820, 0x3cb1c861a6782a5a,
  0x3cb1ea02aa9b3370, 0x3cb20bf293f0f4a2, 0x3cb22e33524fe550, 0x3cb250c6e6403bba,
  0x3cb273af61c7daa6, 0x3cb296eee942532b, 0x3cb2ba87b445db51, 0x3cb2de7c0e962d70,
  0x3cb302ce59265965, 0x3cb327810b2aa7d0, 0x3cb34c96b33bc965, 0x3cb37211f88ca856,
  0x3cb397f59c345143, 0x3cb3be447a8d8b83, 0x3cb3e5018cadded0, 0x3cb40c2fe9f5eead,
  0x3cb433d2c9bd42f8, 0x3cb45bed851bc92c, 0x3cb4848398d39432, 0x3cb4ad98a75da14c,
  0x3cb4d7307b1cb127, 0x3cb5014f08b99508, 0x3cb52bf871acaab2, 0x3cb5573106f8a75a,
  0x3cb582fd4c1b4461, 0x3cb5af61fa38e107, 0x3cb5dc640388bd9e, 0x3cb60a0897081879,
  0x3cb63855247b2e94, 0x3cb6674f60c3f432, 0x3cb696fd4a9748ee, 0x3cb6c7652f9a7b1e,
  0x3cb6f88db1f42507, 0x3cb72a7dce5cd218, 0x3cb75d3ce2bd71c3, 0x3cb790d2b56b71f9,
  0x3cb7c5477d1476d3, 0x3cb7faa3e96e1412, 0x3cb830f12cc0bec3, 0x3cb8683906687342,
  0x3cb8a085ce695bab, 0x3cb8d9e2823b3695, 0x3cb9145ad2f37544, 0x3cb94ffb34fc2a0e,
  0x3cb98cd0f18d1ad8, 0x3cb9caea3a24d9ea, 0x3cba0a563e49f178, 0x3cba4b2543e84c3b,
  0x3cba8d68c2ad86ea, 0x3cbad13382d845c4, 0x3cbb1699c003b60a, 0x3cbb5db15091ea0f,
  0x3cbba691d276da5e, 0x3cbbf154de4bef77, 0x3cbc3e1641c2e0a7, 0x3cbc8cf442c8c8f4,
  0x3cbcde0fecf2a97f, 0x3cbd318d6b2738c5, 0x3cbd87946fec3bec, 0x3cbde050af4ef19f,
  0x3cbe3bf26e190960, 0x3cbe9aaf2af383c1, 0x3cbefcc26750ea4a, 0x3cbf626e9791f7a7,
  0x3cbfcbfe43f6c6e5, 0x3cc01ce2b362ec2e, 0x3cc056118bf58eef, 0x3cc091c1cdcba54e,
  0x3cc0d031785d48a0, 0x3cc111a8034392a6, 0x3cc156786775442a, 0x3cc19f03bcb3c2d6,
  0x3cc1ebbca0c9fa7c, 0x3cc23d2bb659919f, 0x3cc293f5ae49aaa5, 0x3cc2f0e38a4411f0,
  0x3cc354ee27ccf75e, 0x3cc3c14ec7c8b861, 0x3cc4379766e41362, 0x3cc4b9d7cd4751d1,
  0x3cc54ad83ccf73f6, 0x3cc5ee7ae17313d2, 0x3cc6aa676d4bbf72, 0x3cc78750d6eac62f,
  0x3cc8939fe6f2ed19, 0x3cc9e9dc0d487b85, 0x3ccbc39e51da71fc, 0x3ccec9d9297ebb83
]

/-- Heights of the strips under the exponential density, as patterns of bits. -/
def exponentialHeights : Array UInt64 := #[
  0x3ff0000000000000, 0x3fee0545e5881137, 0x3fecd0a65081fff1, 0x3febe5007beb7b27,
  0x3feb210f0ee67f2a, 0x3fea76baa562fae7, 0x3fe9de9715556d9b, 0x3fe95431c455aa39,
  0x3fe8d4a376d3d22f, 0x3fe85de87806c5b8, 0x3fe7ee8a2d243126, 0x3fe7856e9b09d47e,
  0x3fe721bb5ba94b63, 0x3fe6c2c3498418c6, 0x3fe667fa6d4f5c06, 0x3fe610edc1a7af66,
  0x3fe5bd3d694cac75, 0x3fe56c9882da8773, 0x3fe51eba1578899a, 0x3fe4d366c151f8af,
  0x3fe48a6afb8ee069, 0x3fe44399afa8e125, 0x3fe3fecb2bb18b80, 0x3fe3bbdc44e1d114,
  0x3fe37aada708ddd9, 0x3fe33b23450e6318, 0x3fe2fd23e345da5e, 0x3fe2c098b61f4f24,
  0x3fe2856d111132bd, 0x3fe24b8e228c50a3, 0x3fe212eaba813ec8, 0x3fe1db7319877b89,
  0x3fe1a518c71e3b25, 0x3fe16fce6dce6fee, 0x3fe13b87bc33169c, 0x3fe108394a1cc38d,
  0x3fe0d5d8812b1e2b, 0x3fe0a45b8854d02a, 0x3fe073b931ee3b7d, 0x3fe043e8ebd26548,
  0x3fe014e2b160f324, 0x3fdfcd3dfe214576, 0x3fdf722d8ebfc5fa, 0x3fdf1886d1eb424d,
  0x3fdec03d4b969d90, 0x3fde6945367dd351, 0x3fde139375e137fc, 0x3fddbf1d88a7210c,
  0x3fdd6bd97db9ed7a, 0x3fdd19bde97e1a0b, 0x3fdcc8c1dc40e092, 0x3fdc78dcd983fb60,
  0x3fdc2a06d00ea583, 0x3fdbdc3812aeeeb5, 0x3fdb8f6951990b88, 0x3fdb43939454806f,
  0x3fdaf8b03428ef5f, 0x3fdaaeb8d6fdf6e5, 0x3fda65a76aa30140, 0x3fda1d76207521f4,
  0x3fd9d61f695a3792, 0x3fd98f9df2097ba8, 0x3fd949ec9f9a8110, 0x3fd905068c545d04,
  0x3fd8c0e704b75d39, 0x3fd87d8984bc3f8c, 0x3fd83ae9b5446138, 0x3fd7f90369b6ce59,
  0x3fd7b7d29dc6801e, 0x3fd77753735e72e3, 0x3fd7378230b08dea, 0x3fd6f85b3e649e9d,
  0x3fd6b9db25e4e99c, 0x3fd67bfe8fc60d9f, 0x3fd63ec2424827e4, 0x3fd602231fef5876,
  0x3fd5c61e2631ee6c, 0x3fd58ab06c3aa9ef, 0x3fd54fd721bda3e7, 0x3fd5158f8dde89f5,
  0x3fd4dbd70e26f91d, 0x3fd4a2ab158bdad3, 0x3fd46a092b80beef, 0x3fd431eeeb1841e2,
  0x3fd3fa5a0230a14e, 0x3fd3c34830abb285, 0x3fd38cb747b17def, 0x3fd356a528fcd0dd,
  0x3fd3210fc6312435, 0x3fd2ebf520394270, 0x3fd2b75346ae2262, 0x3fd2832857457629,
  0x3fd24f727d4776fd, 0x3fd21c2ff10b7eff, 0x3fd1e95ef77b09db, 0x3fd1b6fde19abc5a,
  0x3fd1850b0c191982, 0x3fd15384dee291ef, 0x3fd12269ccba9fba, 0x3fd0f1b852d9a66c,
  0x3fd0c16ef88f5333, 0x3fd0918c4ee93e13, 0x3fd0620ef05d90d2, 0x3fd032f580797c2c,
  0x3fd0043eab93476a, 0x3fcfabd24cff9354, 0x3fcf4fe75c963e7e, 0x3fcef4ba0fe8e09b,
  0x3fce9a48005940f2, 0x3fce408ed62f83a7, 0x3fcde78c48224f39, 0x3fcd8f3e1ae3eeb8,
  0x3fcd37a220b431fd, 0x3fcce0b638f6d09f, 0x3fcc8a784fce1802, 0x3fcc34e65db9afee,
  0x3fcbdffe67394435, 0x3fcb8bbe7c72e4a5, 0x3fcb3824b8dcef3e, 0x3fcae52f42eb5b0b,
  0x3fca92dc4bc03c49, 0x3fca412a0edf5cbc, 0x3fc9f016d1e4c512, 0x3fc99fa0e43e1623,
  0x3fc94fc69ee692a1, 0x3fc900866425bb79, 0x3fc8b1de9f5062d5, 0x3fc863cdc48c1af9,
  0x3fc816525094e7e6, 0x3fc7c96ac8851bae, 0x3fc77d15b99f46fe, 0x3fc73151b91a2839,
  0x3fc6e61d63ee84ea, 0x3fc69b775ea6da28, 0x3fc6515e5530d1ac, 0x3fc607d0fab06a31,
  0x3fc5bece0954c2b6, 0x3fc57654422e78f5, 0x3fc52e626d078c49, 0x3fc4e6f7583cb6fa,
  0x3fc4a011d8983096, 0x3fc459b0c92dccc6, 0x3fc413d30b386a9a, 0x3fc3ce7785f8a905,
  0x3fc3899d2694d5c9, 0x3fc34542dffa0caf, 0x3fc30167aabe7d6e, 0x3fc2be0a8504cf34,
  0x3fc27b2a72609940, 0x3fc238c67bbbe878, 0x3fc1f6ddaf3dca65, 0x3fc1b56f2031d666,
  0x3fc17479e6f0ae78, 0x3fc133fd20c9712f, 0x3fc0f3f7efec1720, 0x3fc0b4697b54b62f,
  0x3fc07550eeb7a5be, 0x3fc036ad7a6e7f04, 0x3fbff0fca6cbea8d, 0x3fbf758566190414,
  0x3fbefaf3ae83c33c, 0x3fbe8146048eb9cc, 0x3fbe087af561bafb, 0x3fbd909116ad9398,
  0x3fbd198706914dd7, 0x3fbca35b6b80fd57, 0x3fbc2e0cf42e10af, 0x3fbbb99a5771268f,
  0x3fbb460254356548, 0x3fbad343b1655465, 0x3fba615d3dd938b7, 0x3fb9f04dd046f428,
  0x3fb9801447336b70, 0x3fb910af88e574b9, 0x3fb8a21e835a533b, 0x3fb834602c3bc4ba,
  0x3fb7c77380d7a6f3, 0x3fb75b5786193c1e, 0x3fb6f00b488416b6, 0x3fb6858ddc30b620,
  0x3fb61bde5ccadef7, 0x3fb5b2fbed91bb3e, 0x3fb54ae5b959d036, 0x3fb4e39af290d929,
  0x3fb47d1ad343985c, 0x3fb417649d25b10e, 0x3fb3b277999b9f9e, 0x3fb34e5319c6e718,
  0x3fb2eaf676948dd1, 0x3fb2886110ce0570, 0x3fb22692512c9d8c, 0x3fb1c589a86fa340,
  0x3fb165468f755392, 0x3fb105c88756ca50, 0x3fb0a70f19871b3b, 0x3fb04919d7f5c817,
  0x3fafd7d0ba699676, 0x3faf1ef49944e834, 0x3fae679ea52eb2e5, 0x3fadb1ce49315810,
  0x3facfd83031e794a, 0x3fac4abc640721e9, 0x3fab997a10bed985, 0x3faae9bbc26a8084,
  0x3faa3b81471bf138, 0x3fa98eca827b7c4c, 0x3fa8e3976e80776d, 0x3fa839e81c3a396b,
  0x3fa791bcb4ab089e, 0x3fa6eb1579b6af52, 0x3fa645f2c726a041, 0x3fa5a25513c5d2ca,
  0x3fa5003cf296c5eb, 0x3fa45fab14266b19, 0x3fa3c0a047ff18ff, 0x3fa3231d7e3f14ae,
  0x3fa28723c956c00c, 0x3fa1ecb45ff312d4, 0x3fa153d09f19b3a1, 0x3fa0bc7a0c7cd651,
  0x3fa026b2590dfaee, 0x3f9f24f6c7af9890, 0x3f9dffae7a517468, 0x3f9cdd9054331b0c,
  0x3f9bbea150fa5870, 0x3f9aa2e6e6924e9b, 0x3f998a670f132a48, 0x3f98752853ec9967,
  0x3f976331da87fc96, 0x3f96548b72a24077, 0x3f95493da6ab0251, 0x3f944151ce87f0be,
  0x3f933cd225315d84, 0x3f923bc9e1b93a32, 0x3f913e4554725f5f, 0x3f904452091e02f0,
  0x3f8e9bfdde89c7ce, 0x3f8cb6b9146e2757, 0x3f8ad8fa5542c92d, 0x3f8902ea688fa7bd,
  0x3f8734b6e6aa74f5, 0x3f856e930be416cb, 0x3f83b0b8c1516f62, 0x3f81fb69edb37671,
  0x3f804ef2295fd7f9, 0x3f7d5751fa745dc5, 0x3f7a23e9d4974836, 0x3f77049f37ec3620,
  0x3f73fa97cee322fd, 0x3f71073d69574043, 0x3f6c58b381cd4b11, 0x3f66d888f3a1feff,
  0x3f61946ba8e1a324, 0x3f592bb5540c3e25, 0x3f4fb20af78dfcb9, 0x3f3dc31c329f0b4b
]

end Prognosis.Ziggurat
